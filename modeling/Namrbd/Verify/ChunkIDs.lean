import Namrbd.Metadata.ChunkIDs

/-!
# Chunk id ranges are disjoint

Two repositories that read the sequence before either writes it hand out the
same ids, and near the end of the 64-bit range the sequence wraps
(`ranges_overlap`). The ranges are disjoint in every run where the sequence is
read by one repository at a time and does not wrap. Everything handed out or
cached then lies below the sequence, and a reservation starts at it.
-/

namespace Namrbd.ChunkIDs

open Function List Option

variable {count n : Nat} {ι κ : Type} [DecidableEq ι] [DecidableEq κ]

/-- The number of ids an event takes from the counter. -/
def reserves (cfg : ChunkIDConfig ι κ) (s : ChunkIDs ι κ) : ChunkIDEvent ι κ → Option Nat
  | .allocate _ count => if count = 0 then none else some count
  | .allocateCached allocator count =>
    if count = 0 then none
    else if cfg.cacheSize allocator = 0 ∨ cfg.cacheSize allocator < count then some count
    else if (s.caches allocator).remaining < count then some (refillCount cfg allocator count)
    else none
  | .put _ _ => none

/-- A step that reads the sequence finds no repository between its read and its write,
and the ids it reserves end below 2^64. -/
def Alone (cfg : ChunkIDConfig ι κ) (s : ChunkIDs ι κ) (e : ChunkIDEvent ι κ) : Prop :=
  ∀ n ∈ s.reserves cfg e,
    (∀ repository, s.reserving repository = none) ∧ s.getNextChunkID + n < 2 ^ 64

def AloneRun (cfg : ChunkIDConfig ι κ) (s : ChunkIDs ι κ) : List (ChunkIDEvent ι κ) → Prop
  | [] => True
  | e :: events => s.Alone cfg e ∧ ∀ s' ∈ s.step cfg e, s'.AloneRun cfg events

/-- Two ranges, each a start and a length, that do not meet. -/
def Apart (x y : Nat × Nat) : Prop := x.1 + x.2 ≤ y.1 ∨ y.1 + y.2 ≤ x.1

/-! ## What a step does -/

variable {s : ChunkIDs ι κ} {reservation : ChunkIDReservation κ} {s' : ChunkIDs ι κ}
  {repository : ι} {e : ChunkIDEvent ι κ}

/-- Every step does nothing, reads the sequence, hands out cached ids, or writes the
sequence. -/
theorem step_cases {cfg : ChunkIDConfig ι κ} (h : s.step cfg e = some s') :
    s' = s ∨
    (∃ repository caller n refilling, s.reserves cfg e = some n ∧ 0 < n ∧
      s.reserving repository = none ∧
      (∀ allocator count, caller = .cached allocator count → 0 < count ∧ count ≤ n) ∧
      s' = { s with
        refilling := refilling
        reserving := update s.reserving repository
          (some { caller, startID := s.getNextChunkID, count := n }) }) ∨
    (∃ allocator count, 0 < count ∧ count ≤ (s.caches allocator).remaining ∧
      s' = { s with
        caches := update s.caches allocator
          ⟨uint64 ((s.caches allocator).next + count), (s.caches allocator).stop⟩
        returned := ((s.caches allocator).next, count) :: s.returned }) ∨
    ∃ repository reservation outcome, s.reserving repository = some reservation ∧
      s' = s.answer repository reservation outcome := by
  cases e with
  | allocate repository count =>
    simp only [step] at h
    split at h
    · cases h
      exact .inl rfl
    next hcount =>
    unfold reserve at h
    split at h
    · cases h
    next hnone =>
    cases h
    exact .inr (.inl ⟨repository, .direct, count, s.refilling, by simp [reserves, hcount],
      by omega, hnone, nofun, rfl⟩)
  | allocateCached allocator count =>
    simp only [step] at h
    split at h
    · cases h
      exact .inl rfl
    next hcount =>
    split at h
    · next hdirect =>
      unfold reserve at h
      split at h
      · cases h
      next hnone =>
      cases h
      exact .inr (.inl ⟨cfg.next allocator, .direct, count, s.refilling,
        by simp [reserves, hcount, hdirect], by omega, hnone, nofun, rfl⟩)
    next hcached =>
    split at h
    · cases h
    split at h
    · next hless =>
      unfold reserve at h
      split at h
      · cases h
      next hnone =>
      have hrefill : count ≤ refillCount cfg allocator count := by
        unfold refillCount
        split <;> omega
      cases h
      refine .inr (.inl ⟨cfg.next allocator, .cached allocator count,
        refillCount cfg allocator count, _, by simp [reserves, hcount, hcached, hless],
        by omega, hnone, ?_, rfl⟩)
      rintro _ _ ⟨⟩
      exact ⟨by omega, hrefill⟩
    · next henough =>
      cases h
      exact .inr (.inr (.inl ⟨allocator, count, by omega, by omega, rfl⟩))
  | put repository outcome =>
    simp only [step] at h
    split at h
    · cases h
    · next reservation hsome =>
      cases h
      exact .inr (.inr (.inr ⟨repository, reservation, outcome, hsome, rfl⟩))

/-! ## The invariant -/

/-- What was handed out and what is cached lies below `next`, apart from each other. -/
structure Ranges (next : Nat) (returned : List (Nat × Nat)) (caches : κ → ChunkIDCacheRange) :
    Prop where
  below : ∀ x ∈ returned, 0 < x.1 ∧ x.1 + x.2 ≤ next
  apart : returned.Pairwise Apart
  cache : ∀ a, (caches a).next ≤ (caches a).stop ∧ (caches a).stop ≤ next ∧
    ((caches a).next = (caches a).stop ∨ 0 < (caches a).next)
  cache_returned : ∀ a, ∀ x ∈ returned, x.1 + x.2 ≤ (caches a).next ∨ (caches a).stop ≤ x.1
  cache_cache : ∀ a b, a ≠ b →
    (caches a).stop ≤ (caches b).next ∨ (caches b).stop ≤ (caches a).next

namespace Ranges

variable {next : Nat} {returned : List (Nat × Nat)} {caches : κ → ChunkIDCacheRange}

omit [DecidableEq κ] in
theorem mono (h : Ranges next returned caches) {next' : Nat} (hle : next ≤ next') :
    Ranges next' returned caches where
  below x hx := ⟨(h.below x hx).1, (h.below x hx).2.trans hle⟩
  apart := h.apart
  cache a := ⟨(h.cache a).1, (h.cache a).2.1.trans hle, (h.cache a).2.2⟩
  cache_returned := h.cache_returned
  cache_cache := h.cache_cache

theorem hit (h : Ranges next returned caches) {allocator : κ} (hcount : 0 < count)
    (henough : (caches allocator).next + count ≤ (caches allocator).stop) :
    Ranges next (((caches allocator).next, count) :: returned)
      (update caches allocator
        ⟨(caches allocator).next + count, (caches allocator).stop⟩) := by
  obtain ⟨hle, hstop, hpos⟩ := h.cache allocator
  refine ⟨forall_mem_cons.mpr ⟨?_, h.below⟩, pairwise_cons.mpr ⟨fun x hx => ?_, h.apart⟩,
    fun a => ?_, fun a x hx => ?_, fun a b hab => ?_⟩
  · exact ⟨by dsimp only; omega, by dsimp only; omega⟩
  · have hx := h.cache_returned allocator x hx
    unfold Apart
    omega
  · rw [update_apply]
    split
    · exact ⟨henough, hstop, by dsimp only; omega⟩
    · exact h.cache a
  · rw [update_apply]
    split
    · rcases mem_cons.mp hx with rfl | hx
      · exact .inl (Nat.le_refl _)
      · have hx := h.cache_returned allocator x hx
        dsimp only
        omega
    · next hne =>
      rcases mem_cons.mp hx with rfl | hx
      · have hcaches := h.cache_cache a allocator hne
        omega
      · exact h.cache_returned a x hx
  · rw [update_apply, update_apply]
    split <;> split
    · next ha hb => exact absurd (ha.trans hb.symm) hab
    · next ha hb =>
      have hcaches := h.cache_cache allocator b (Ne.symm hb)
      dsimp only
      omega
    · next ha hb =>
      have hcaches := h.cache_cache a allocator ha
      dsimp only
      omega
    · exact h.cache_cache a b hab

omit [DecidableEq κ] in
theorem reserved (h : Ranges next returned caches) (hnext : 0 < next) (hcount : count ≤ n) :
    Ranges (next + n) ((next, count) :: returned) caches where
  below := forall_mem_cons.mpr
    ⟨⟨hnext, by dsimp only; omega⟩, (h.mono (Nat.le_add_right next n)).below⟩
  apart := pairwise_cons.mpr ⟨fun x hx => .inr (h.below x hx).2, h.apart⟩
  cache := (h.mono (Nat.le_add_right next n)).cache
  cache_returned a := forall_mem_cons.mpr ⟨.inr (h.cache a).2.1, h.cache_returned a⟩
  cache_cache := h.cache_cache

theorem refill (h : Ranges next returned caches) (hnext : 0 < next) (hcount : count ≤ n)
    (allocator : κ) :
    Ranges (next + n) ((next, count) :: returned)
      (update caches allocator ⟨next + count, next + n⟩) := by
  have hrest := h.reserved hnext hcount
  refine ⟨hrest.below, hrest.apart, fun a => ?_, fun a x hx => ?_, fun a b hab => ?_⟩
  · rw [update_apply]
    split
    · dsimp only
      omega
    · exact hrest.cache a
  · rw [update_apply]
    split
    · rcases mem_cons.mp hx with rfl | hx
      · exact .inl (Nat.le_refl _)
      · have hx := (h.below x hx).2
        dsimp only
        omega
    · exact hrest.cache_returned a x hx
  · have ha := (h.cache a).2.1
    have hb := (h.cache b).2.1
    rw [update_apply, update_apply]
    split <;> split
    · next ha' hb' => exact absurd (ha'.trans hb'.symm) hab
    · dsimp only
      omega
    · dsimp only
      omega
    · exact h.cache_cache a b hab

end Ranges

/-- At most one repository is between its read and its write, and it has read the
sequence as it stands. -/
structure Inv (s : ChunkIDs ι κ) : Prop where
  bound : s.getNextChunkID < 2 ^ 64
  ranges : Ranges s.getNextChunkID s.returned s.caches
  reserved : ∀ repository reservation, s.reserving repository = some reservation →
    reservation.startID = s.getNextChunkID ∧
    s.getNextChunkID + reservation.count < 2 ^ 64 ∧ 0 < reservation.count ∧
    ∀ allocator count, reservation.caller = .cached allocator count →
      0 < count ∧ count ≤ reservation.count
  one : ∀ i j r r', s.reserving i = some r → s.reserving j = some r' → i = j

omit [DecidableEq ι] [DecidableEq κ] in
theorem getNextChunkID_pos (s : ChunkIDs ι κ) : 0 < s.getNextChunkID := by
  unfold getNextChunkID
  split <;> omega

theorem uint64_of_lt (h : n < 2 ^ 64) : uint64 n = n := Nat.mod_eq_of_lt h

omit [DecidableEq ι] [DecidableEq κ] in
theorem inv_start (h : n < 2 ^ 64) : Inv ({ sequence := n } : ChunkIDs ι κ) where
  bound := by
    unfold getNextChunkID
    split <;> omega
  ranges := ⟨nofun, List.Pairwise.nil, fun _ => ⟨Nat.le_refl 0, Nat.zero_le _, .inl rfl⟩,
    fun _ => nofun, fun _ _ _ => .inl (Nat.le_refl 0)⟩
  reserved _ _ := nofun
  one _ _ _ _ := nofun

/-! ## One step -/

/-- What a write of the sequence leaves: the front of the reservation may be handed out
and its rest cached. -/
theorem answer_cases (h : Inv s) (hr : s.reserving repository = some reservation)
    (outcome : PutOutcome) :
    ∃ sequence returned caches refilling,
      s.answer repository reservation outcome =
        { sequence, reserving := update s.reserving repository none
          caches, refilling, returned } ∧
      (sequence = s.sequence ∨ sequence = s.getNextChunkID + reservation.count) ∧
      ((returned = s.returned ∧ caches = s.caches) ∨
        sequence = s.getNextChunkID + reservation.count ∧ ∃ count, count ≤ reservation.count ∧
          returned = (s.getNextChunkID, count) :: s.returned ∧
          (caches = s.caches ∨ ∃ allocator, caches = update s.caches allocator
            ⟨s.getNextChunkID + count, s.getNextChunkID + reservation.count⟩)) := by
  obtain ⟨hstart, hbound, hpos, hcaller⟩ := h.reserved repository reservation hr
  unfold answer
  rw [hstart, uint64_of_lt hbound]
  have hseq : (if outcome = .failed then s.sequence
        else s.getNextChunkID + reservation.count) = s.sequence ∨
      (if outcome = .failed then s.sequence else s.getNextChunkID + reservation.count) =
        s.getNextChunkID + reservation.count := by
    split
    · exact .inl rfl
    · exact .inr rfl
  cases hcase : reservation.caller with
  | direct =>
    by_cases hwrit : outcome = .written
    · subst hwrit
      exact ⟨_, _, _, _, rfl, .inr rfl, .inr ⟨rfl, reservation.count, Nat.le_refl _, rfl, .inl rfl⟩⟩
    · dsimp only
      rw [if_neg hwrit]
      exact ⟨_, _, _, _, rfl, hseq, .inl ⟨rfl, rfl⟩⟩
  | cached allocator count =>
    obtain ⟨-, hle⟩ := hcaller allocator count hcase
    by_cases hwrit : outcome = .written
    · subst hwrit
      dsimp only
      rw [uint64_of_lt (by omega)]
      exact ⟨_, _, _, _, rfl, .inr rfl, .inr ⟨rfl, count, hle, rfl, .inr ⟨allocator, rfl⟩⟩⟩
    · dsimp only
      rw [if_neg hwrit]
      exact ⟨_, _, _, _, rfl, hseq, .inl ⟨rfl, rfl⟩⟩

theorem Inv.answer (h : Inv s) (hr : s.reserving repository = some reservation)
    (outcome : PutOutcome) : Inv (s.answer repository reservation outcome) := by
  obtain ⟨-, hbound, -, -⟩ := h.reserved repository reservation hr
  obtain ⟨sequence, returned, caches, refilling, heq, hseq, hranges⟩ :=
    answer_cases h hr outcome
  rw [heq]
  have hpos := s.getNextChunkID_pos
  -- only one repository was between its read and its write
  have hnone : ∀ other, update s.reserving repository none other = none := by
    intro other
    rw [update_apply]
    split
    · rfl
    next hne =>
    cases hother : s.reserving other with
    | none => rfl
    | some r => exact absurd (h.one other repository r reservation hother hr) hne
  have hnext : ∀ {n}, n = s.getNextChunkID + reservation.count →
      (if n = 0 then 1 else n) = s.getNextChunkID + reservation.count := by
    intro n hn
    rw [if_neg (by omega), hn]
  refine ⟨?_, ?_, fun i r hi => ?_, fun i j r r' hi => ?_⟩
  · rcases hseq with hseq | hseq
    · exact hseq ▸ h.bound
    · exact (hnext hseq).trans_lt hbound
  · rcases hranges with ⟨rfl, rfl⟩ | ⟨hseq, count, hcount, rfl, hcaches⟩
    · rcases hseq with rfl | hseq
      · exact h.ranges
      · exact h.ranges.mono ((Nat.le_add_right _ _).trans_eq (hnext hseq).symm)
    · show Ranges (if sequence = 0 then 1 else sequence) _ _
      rw [hnext hseq]
      rcases hcaches with rfl | ⟨allocator, rfl⟩
      · exact h.ranges.reserved hpos hcount
      · exact h.ranges.refill hpos hcount allocator
  · cases (hnone i).symm.trans hi
  · cases (hnone i).symm.trans hi

/-! ## Runs -/

theorem Inv.step {cfg : ChunkIDConfig ι κ} (h : Inv s) (halone : s.Alone cfg e)
    (hstep : s.step cfg e = some s') : Inv s' := by
  rcases step_cases hstep with rfl | ⟨repository, caller, n, refilling, hn, hpos, -, hcaller, rfl⟩ |
    ⟨allocator, count, hcount, henough, rfl⟩ | ⟨repository, reservation, outcome, hr, rfl⟩
  · exact h
  · -- no other repository is between its read and its write
    obtain ⟨hnone, hbound⟩ := halone n hn
    have hreserving : ∀ i r, update s.reserving repository
        (some { caller, startID := s.getNextChunkID, count := n }) i = some r →
        i = repository ∧ r = { caller, startID := s.getNextChunkID, count := n } := by
      intro i r hr
      rw [update_apply] at hr
      split at hr
      · next hi =>
        cases hr
        exact ⟨hi, rfl⟩
      · rw [hnone] at hr
        cases hr
    refine ⟨h.bound, h.ranges, fun i r hr => ?_, fun i j r r' hr hr' => ?_⟩
    · obtain ⟨-, rfl⟩ := hreserving i r hr
      exact ⟨rfl, hbound, hpos, hcaller⟩
    · rw [(hreserving i r hr).1, (hreserving j r' hr').1]
  · -- the cache has enough
    obtain ⟨hle, hstop, -⟩ := h.ranges.cache allocator
    have hbound := h.bound
    have hfits : (s.caches allocator).next + count ≤ (s.caches allocator).stop := by
      unfold ChunkIDCacheRange.remaining uint64 at henough
      omega
    rw [uint64_of_lt (by omega)]
    exact ⟨h.bound, h.ranges.hit hcount hfits, h.reserved, h.one⟩
  · exact h.answer hr outcome

theorem Inv.steps {cfg : ChunkIDConfig ι κ} {events : List (ChunkIDEvent ι κ)} (h : Inv s)
    (halone : s.AloneRun cfg events) (hsteps : s.steps cfg events = some s') : Inv s' := by
  induction events generalizing s with
  | nil =>
    cases hsteps
    exact h
  | cons e events ih =>
    obtain ⟨s1, hstep, hsteps⟩ := bind_eq_some_iff.mp hsteps
    exact ih (h.step halone.1 hstep) (halone.2 s1 hstep) hsteps

/-- In every run where the sequence is read by one repository at a time and does not wrap,
the ranges handed out are pairwise disjoint, do not contain 0 and end below 2^64. -/
theorem ranges_disjoint (cfg : ChunkIDConfig ι κ) (n : Nat) (hn : n < 2 ^ 64)
    (events : List (ChunkIDEvent ι κ)) (halone : AloneRun cfg { sequence := n } events)
    (s : ChunkIDs ι κ) (hsteps : steps cfg { sequence := n } events = some s) :
    s.returned.Pairwise Apart ∧ ∀ x ∈ s.returned, 0 < x.1 ∧ x.1 + x.2 < 2 ^ 64 := by
  have hinv := (inv_start hn).steps halone hsteps
  refine ⟨hinv.ranges.apart, fun x hx => ⟨(hinv.ranges.below x hx).1, ?_⟩⟩
  exact Nat.lt_of_le_of_lt (hinv.ranges.below x hx).2 hinv.bound

/-! ## Two repositories and a cached allocator -/

namespace TwoRepositories

def cfg : ChunkIDConfig Bool Unit := { next := fun _ => true, cacheSize := fun _ => 4 }

/-- Both repositories read the sequence before either writes it. -/
def racing : List (ChunkIDEvent Bool Unit) :=
  [.allocate false 1, .allocate true 1, .put false .written, .put true .written]

/-- The last two ids of the 64-bit range, of which one exists. -/
def wrapping : List (ChunkIDEvent Bool Unit) := [.allocate false 2, .put false .written]

/-- Two repositories that read the sequence together return the same id, and a range may wrap. -/
theorem ranges_overlap :
    (steps cfg { sequence := 0 } racing).map (·.returned) = some [(1, 1), (1, 1)] ∧
    ¬ Apart (1, 1) (1, 1) ∧
    (steps cfg { sequence := 2 ^ 64 - 1 } wrapping).map (fun s => (s.returned, s.sequence)) =
      some ([(2 ^ 64 - 1, 2)], 1) := by
  refine ⟨by decide, by unfold Apart; decide, by decide⟩

/-- A direct allocation, a refill, a lost write and ids from the cache, one at a time. -/
def waiting : List (ChunkIDEvent Bool Unit) :=
  [.allocate false 3, .put false .written, .allocateCached () 1, .put true .written,
    .allocate false 2, .put false .lost, .allocateCached () 2]

/-- Allocations that wait for each other return three ranges apart. -/
theorem waiting_ranges_disjoint : ∃ s, steps cfg { sequence := 0 } waiting = some s ∧
      s.returned = [(5, 2), (4, 1), (1, 3)] ∧ s.returned.Pairwise Apart := by
  have halone : AloneRun cfg { sequence := 0 } waiting := by
    simp [waiting, AloneRun, Alone, step, reserves, reserve, answer, getNextChunkID, cfg,
      ChunkIDCacheRange.remaining, uint64, refillCount]
  obtain ⟨s, hs⟩ := isSome_iff_exists.mp
    (show (steps cfg { sequence := 0 } waiting).isSome = true by decide)
  have hreturned : (steps cfg { sequence := 0 } waiting).map (·.returned) =
      some [(5, 2), (4, 1), (1, 3)] := by decide
  rw [hs] at hreturned
  exact ⟨s, hs, some.inj hreturned, (ranges_disjoint cfg 0 (by decide) waiting halone s hs).1⟩

end TwoRepositories

end Namrbd.ChunkIDs
