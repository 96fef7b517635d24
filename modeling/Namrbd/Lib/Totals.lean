import Mathlib.Algebra.BigOperators.Finprod
import Mathlib.Algebra.Order.BigOperators.Group.Finset
import Mathlib.Tactic.Abel

/-!
# Totals over a map

A map from keys to records with finitely many records has a total of any measure
of a record. `total_update` is the accounting rule: the total after one write is
the total before it, less what the key counted for and plus what it counts for
now. A counter that is kept beside the map and moved by the same difference
therefore stays the total. The keys can also be spread over shards, each with a
total of its own.
-/

namespace Totals

open Function

variable {κ ρ M : Type*}

section Sums

variable [AddCommMonoid M] {g : κ → M} {shard : κ → ℕ} {i : ℕ}

theorem finsum_update [DecidableEq κ] (hg : g.support.Finite) (k : κ) (v : M) :
    ∑ᶠ k', update g k v k' + g k = ∑ᶠ k', g k' + v := by
  -- both sums are over the keys in use and the one written
  let s := insert k hg.toFinset
  have hmem : g.support ⊆ s := fun k' hk' =>
    Finset.mem_insert_of_mem (hg.mem_toFinset.mpr hk')
  have hmem' : (update g k v).support ⊆ s := by
    intro k' hk'
    by_cases h : k' = k
    · exact h ▸ Finset.mem_insert_self k _
    · rw [mem_support, update_of_ne h] at hk'
      exact hmem hk'
  have hk : k ∈ s := Finset.mem_insert_self k _
  have hrest : ∑ k' ∈ s.erase k, update g k v k' = ∑ k' ∈ s.erase k, g k' := by
    refine Finset.sum_congr rfl fun k' hk' => ?_
    rw [update_of_ne (Finset.ne_of_mem_erase hk')]
  rw [finsum_eq_sum_of_support_subset _ hmem', finsum_eq_sum_of_support_subset _ hmem,
    ← Finset.add_sum_erase s _ hk, ← Finset.add_sum_erase s g hk, hrest, update_self]
  abel

theorem finite_support_update [DecidableEq κ] (hg : g.support.Finite) (k : κ) (v : M) :
    (update g k v).support.Finite := by
  classical
  rw [support_update_eq_ite]
  split
  · exact hg.sdiff
  · exact hg.insert k

/-- The values at the keys of one shard. -/
def part (shard : κ → ℕ) (i : ℕ) (g : κ → M) (k : κ) : M :=
  if shard k = i then g k else 0

theorem finite_support_part (hg : g.support.Finite) (shard : κ → ℕ) (i : ℕ) :
    (part shard i g).support.Finite := by
  refine hg.subset fun k hk hzero => hk ?_
  rw [part, hzero, ite_self]

theorem part_update_of_eq [DecidableEq κ] {k : κ} (h : shard k = i) (v : M) :
    part shard i (update g k v) = update (part shard i g) k v := by
  funext k'
  by_cases hk : k' = k
  · subst hk
    rw [part, if_pos h, update_self, update_self]
  · rw [update_of_ne hk, part, part, update_of_ne hk]

theorem part_update_of_ne [DecidableEq κ] {k : κ} (h : shard k ≠ i) (v : M) :
    part shard i (update g k v) = part shard i g := by
  funext k'
  by_cases hk : k' = k
  · subst hk
    rw [part, part, if_neg h, if_neg h]
  · rw [part, part, update_of_ne hk]

theorem sum_finsum_part (hg : g.support.Finite) {n : ℕ} (hn : ∀ k, shard k < n) :
    ∑ i ∈ Finset.range n, ∑ᶠ k, part shard i g k = ∑ᶠ k, g k := by
  have hpart : ∀ i, (part shard i g).support ⊆ hg.toFinset := by
    intro i k hk
    rw [hg.coe_toFinset]
    exact fun hzero => hk (by rw [part, hzero, ite_self])
  rw [finsum_eq_sum g hg,
    Finset.sum_congr rfl fun i _ => finsum_eq_sum_of_support_subset _ (hpart i), Finset.sum_comm]
  refine Finset.sum_congr rfl fun k _ => ?_
  -- a key counts in its own shard and in no other
  rw [Finset.sum_eq_single (shard k)]
  · rw [part, if_pos rfl]
  · exact fun i _ hne => if_neg hne.symm
  · exact fun h => absurd (Finset.mem_range.mpr (hn k)) h

theorem le_finsum [PartialOrder M] [IsOrderedAddMonoid M] [CanonicallyOrderedAdd M]
    (hg : g.support.Finite) (k : κ) : g k ≤ ∑ᶠ k', g k' := by
  by_cases hk : g k = 0
  · rw [hk]
    exact zero_le
  · rw [finsum_eq_sum g hg]
    exact Finset.single_le_sum (fun _ _ => zero_le) (hg.mem_toFinset.mpr hk)

end Sums

/-! ## Records -/

/-- The map holds finitely many records. -/
def FiniteMap (t : κ → Option ρ) : Prop := {k | t k ≠ none}.Finite

theorem FiniteMap.empty : FiniteMap (fun _ : κ => (none : Option ρ)) := by
  simp [FiniteMap]

theorem FiniteMap.update [DecidableEq κ] {t : κ → Option ρ} (ht : FiniteMap t) (k : κ)
    (o : Option ρ) : FiniteMap (update t k o) := by
  refine (ht.insert k).subset ?_
  intro k' hk'
  by_cases h : k' = k
  · exact .inl h
  · have hk' : Function.update t k o k' ≠ none := hk'
    rw [update_of_ne h] at hk'
    exact .inr hk'

section Total

variable [AddCommMonoid M] (f : ρ → M)

/-- What all records of a map count for together. -/
noncomputable def total (t : κ → Option ρ) : M := ∑ᶠ k, (t k).elim 0 f

variable {f} {t : κ → Option ρ}

theorem FiniteMap.support (ht : FiniteMap t) : (fun k => (t k).elim 0 f).support.Finite := by
  refine ht.subset fun k hk hnone => hk ?_
  change (t k).elim 0 f = 0
  rw [hnone]
  rfl

theorem total_eq_zero (h : ∀ k r, t k = some r → f r = 0) : total f t = 0 := by
  refine finsum_eq_zero_of_forall_eq_zero fun k => ?_
  cases hk : t k with
  | none => rfl
  | some r => exact h k r hk

/-- One write moves the total by the difference it makes at its key. -/
theorem total_update [DecidableEq κ] (ht : FiniteMap t) (k : κ) (o : Option ρ) :
    total f (update t k o) + (t k).elim 0 f = total f t + o.elim 0 f := by
  have hupdate : (fun k' => (update t k o k').elim 0 f) =
      update (fun k' => (t k').elim 0 f) k (o.elim 0 f) :=
    funext fun k' => apply_update (fun _ (o : Option ρ) => o.elim 0 f) t k o k'
  rw [total, hupdate]
  exact finsum_update ht.support k _

theorem le_total [PartialOrder M] [IsOrderedAddMonoid M] [CanonicallyOrderedAdd M]
    (ht : FiniteMap t) {k : κ} {r : ρ} (h : t k = some r) : f r ≤ total f t := by
  have hle := le_finsum (ht.support (f := f)) k
  rw [h] at hle
  exact hle

end Total

end Totals
