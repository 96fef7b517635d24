import Mathlib.Data.List.Forall2
import Mathlib.Order.Lattice
import Mathlib.Data.List.Basic

/-!
# Keyed tables

A table is the list of its records in key order, as a prefix scan of a
key-value store returns it. `get?` reads the record of a key and `put` replaces
it or inserts it in order. The reading laws hold of any list; the order is
needed only where a scan must see each key once (`Sorted`).
-/

namespace Table

open List

variable {ρ κ : Type*} [LinearOrder κ] (key : ρ → κ)

def get? (k : κ) (t : List ρ) : Option ρ :=
  t.find? fun r => key r = k

/-- Replace the record stored under the key of `r`, or insert it in key order. -/
def put (r : ρ) : List ρ → List ρ
  | [] => [r]
  | x :: xs =>
    if key r < key x then r :: x :: xs
    else if key r = key x then r :: xs
    else x :: put r xs

/-- The records are in strict key order. -/
def Sorted (t : List ρ) : Prop :=
  t.Pairwise fun a b => key a < key b

variable {key}

@[simp] theorem get?_nil (k : κ) : get? key k [] = none := rfl

theorem get?_cons (k : κ) (x : ρ) (xs : List ρ) :
    get? key k (x :: xs) = if key x = k then some x else get? key k xs := by
  unfold get?
  by_cases h : key x = k <;> simp [h]

theorem get?_append (k : κ) (t t' : List ρ) :
    get? key k (t ++ t') = (get? key k t).or (get? key k t') :=
  find?_append

variable {k : κ} {t rs : List ρ} {r x : ρ}

theorem key_of_get? (h : get? key k t = some r) : key r = k := by
  simpa using find?_some h

theorem mem_of_get? (h : get? key k t = some r) : r ∈ t := mem_of_find?_eq_some h

theorem get?_eq_none : get? key k t = none ↔ ∀ r ∈ t, key r ≠ k := by
  simp [get?, find?_eq_none]

@[simp] theorem get?_put_self (r : ρ) (t : List ρ) : get? key (key r) (put key r t) = some r := by
  induction t with
  | nil => simp [put, get?_cons]
  | cons x xs ih =>
    unfold put
    split
    · simp [get?_cons]
    · split
      · simp [get?_cons]
      · next h => rw [get?_cons, if_neg (Ne.symm h), ih]

theorem get?_put_of_ne (h : key r ≠ k) (t : List ρ) : get? key k (put key r t) = get? key k t := by
  induction t with
  | nil => simp [put, get?_cons, h]
  | cons x xs ih =>
    unfold put
    split
    · rw [get?_cons, if_neg h]
    · split
      · next heq => rw [get?_cons, if_neg h, get?_cons, if_neg (heq ▸ h)]
      · rw [get?_cons, get?_cons, ih]

theorem get?_put (r : ρ) (k : κ) (t : List ρ) :
    get? key k (put key r t) = if key r = k then some r else get? key k t := by
  split
  · next h => rw [← h, get?_put_self]
  · next h => exact get?_put_of_ne h t

theorem get?_put_ne_none (h : get? key k t ≠ none) (r : ρ) : get? key k (put key r t) ≠ none := by
  rw [get?_put]
  split
  · simp
  · exact h

theorem mem_put (h : x ∈ put key r t) : x = r ∨ x ∈ t := by
  induction t with
  | nil => exact .inl (mem_singleton.mp h)
  | cons y ys ih =>
    unfold put at h
    split at h
    · exact mem_cons.mp h
    split at h
    · exact (mem_cons.mp h).imp_right (mem_cons_of_mem y)
    rcases mem_cons.mp h with rfl | h
    · exact .inr mem_cons_self
    · exact (ih h).imp_right (mem_cons_of_mem y)

theorem length_le_length_put (r : ρ) (t : List ρ) : t.length ≤ (put key r t).length := by
  induction t with
  | nil => simp
  | cons x xs ih =>
    unfold put
    split
    · simp
    · split <;> simp [ih]

theorem Sorted.put (h : Sorted key t) (r : ρ) : Sorted key (put key r t) := by
  induction t with
  | nil => exact pairwise_singleton _ r
  | cons x xs ih =>
    obtain ⟨hx, hxs⟩ := pairwise_cons.mp h
    unfold Table.put
    split
    · next hlt =>
      refine pairwise_cons.mpr ⟨fun y hy => ?_, h⟩
      rcases mem_cons.mp hy with rfl | hy
      · exact hlt
      · exact lt_trans hlt (hx y hy)
    · split
      · next heq => exact pairwise_cons.mpr ⟨fun y hy => heq ▸ hx y hy, hxs⟩
      · next hlt hne =>
        have hgt : key x < key r := lt_of_le_of_ne (not_lt.mp hlt) (Ne.symm hne)
        refine pairwise_cons.mpr ⟨fun y hy => ?_, ih hxs⟩
        rcases mem_put hy with rfl | hy
        · exact hgt
        · exact hx y hy

theorem Sorted.get?_of_mem (h : Sorted key t) (hr : r ∈ t) : get? key (key r) t = some r := by
  induction t with
  | nil => cases hr
  | cons x xs ih =>
    obtain ⟨hx, hxs⟩ := pairwise_cons.mp h
    rw [get?_cons]
    rcases mem_cons.mp hr with rfl | hr
    · rw [if_pos rfl]
    · rw [if_neg (ne_of_lt (hx r hr)), ih hxs hr]

variable (key) in
def putAll (rs : List ρ) (t : List ρ) : List ρ :=
  rs.foldl (fun t r => put key r t) t

theorem get?_putAll_of_forall_ne (h : ∀ r ∈ rs, key r ≠ k) (t : List ρ) :
    get? key k (putAll key rs t) = get? key k t := by
  unfold putAll
  induction rs generalizing t with
  | nil => rfl
  | cons r rs ih =>
    rw [foldl_cons, ih (fun x hx => h x (mem_cons_of_mem r hx)), get?_put_of_ne (h r mem_cons_self)]

theorem get?_putAll (rs : List ρ) (k : κ) (t : List ρ) :
    get? key k (putAll key rs t) =
      (rs.reverse.find? fun r => key r = k).or (get? key k t) := by
  unfold putAll
  induction rs generalizing t with
  | nil => rfl
  | cons r rs ih =>
    rw [foldl_cons, ih, get?_put, reverse_cons, find?_append]
    by_cases h : key r = k
    · cases find? (fun r => decide (key r = k)) rs.reverse <;> simp [h]
    · cases find? (fun r => decide (key r = k)) rs.reverse <;> simp [h]

theorem Sorted.putAll (h : Sorted key t) (rs : List ρ) : Sorted key (putAll key rs t) := by
  induction rs generalizing t with
  | nil => exact h
  | cons r rs ih => exact ih (h.put r)

theorem mem_putAll (h : x ∈ putAll key rs t) : x ∈ rs ∨ x ∈ t := by
  induction rs generalizing t with
  | nil => exact .inr h
  | cons r rs ih =>
    rcases ih h with h | h
    · exact .inl (mem_cons_of_mem _ h)
    · rcases mem_put h with rfl | h
      · exact .inl mem_cons_self
      · exact .inr h

theorem Sorted.pairwise_ne (h : Sorted key t) : t.Pairwise fun a b => key a ≠ key b :=
  h.imp fun hlt => ne_of_lt hlt

theorem get?_putAll_of_mem (h : rs.Pairwise fun a b => key a ≠ key b) (hr : r ∈ rs) (t : List ρ) :
    get? key (key r) (putAll key rs t) = some r := by
  induction rs generalizing t with
  | nil => cases hr
  | cons x xs ih =>
    obtain ⟨hx, hxs⟩ := pairwise_cons.mp h
    rcases mem_cons.mp hr with rfl | hr
    · -- the records after it have other keys
      have hrest := get?_putAll_of_forall_ne (fun y hy => Ne.symm (hx y hy)) (put key r t)
      exact hrest.trans (get?_put_self r t)
    · exact ih hxs hr _

theorem Sorted.get?_putAll_of_mem (h : Sorted key rs) (hr : r ∈ rs) (t : List ρ) :
    get? key (key r) (Table.putAll key rs t) = some r :=
  Table.get?_putAll_of_mem h.pairwise_ne hr t

theorem Sorted.forall₂_put {R : ρ → ρ → Prop} (hrefl : ∀ x, R x x) (h : Sorted key t)
    (hx : get? key (key r) t = some x) (hR : R x r) : List.Forall₂ R t (Table.put key r t) := by
  induction t with
  | nil => cases hx
  | cons y ys ih =>
    obtain ⟨hy, hys⟩ := pairwise_cons.mp h
    have hself : List.Forall₂ R ys ys := forall₂_same.mpr fun z _ => hrefl z
    rw [get?_cons] at hx
    unfold Table.put
    by_cases hkey : key y = key r
    · rw [if_pos hkey] at hx
      cases hx
      rw [if_neg (by rw [hkey]; exact lt_irrefl _), if_pos hkey.symm]
      exact .cons hR hself
    · rw [if_neg hkey] at hx
      have hmem := mem_of_get? hx
      have hlt : key y < key r := by
        have := hy x hmem
        rwa [key_of_get? hx] at this
      rw [if_neg (not_lt_of_gt hlt), if_neg (ne_of_gt hlt)]
      exact .cons (hrefl y) (ih hys hx)

theorem countP_put_of_get?_eq_none (p : ρ → Bool) (h : get? key (key r) t = none) :
    (put key r t).countP p = t.countP p + (p r).toNat := by
  induction t with
  | nil => cases hp : p r <;> simp [put, hp]
  | cons x xs ih =>
    have hne : key x ≠ key r := get?_eq_none.mp h x mem_cons_self
    have hxs : get? key (key r) xs = none := by rwa [get?_cons, if_neg hne] at h
    unfold put
    split
    · cases hp : p r <;> simp [countP_cons, hp]
    · rw [if_neg (Ne.symm hne), countP_cons, countP_cons, ih hxs]
      omega

theorem Sorted.countP_put (p : ρ → Bool) (ht : Sorted key t) {old : ρ}
    (h : get? key (key r) t = some old) :
    (Table.put key r t).countP p + (p old).toNat = t.countP p + (p r).toNat := by
  induction t with
  | nil => cases h
  | cons x xs ih =>
    obtain ⟨hx, hxs⟩ := pairwise_cons.mp ht
    rw [get?_cons] at h
    unfold Table.put
    by_cases hkey : key x = key r
    · rw [if_pos hkey] at h
      cases h
      rw [if_neg (by rw [hkey]; exact lt_irrefl _), if_pos hkey.symm]
      cases hr : p r <;> cases hp : p old <;> simp [hr, hp]
    · rw [if_neg hkey] at h
      have hlt : key x < key r := by
        have := hx old (mem_of_get? h)
        rwa [key_of_get? h] at this
      rw [if_neg (not_lt_of_gt hlt), if_neg (ne_of_gt hlt), countP_cons, countP_cons]
      have := ih hxs h
      omega

theorem get?_map {f : κ → ρ} (hf : ∀ k, key (f k) = k) (k : κ) (ks : List κ) :
    get? key k (ks.map f) = if k ∈ ks then some (f k) else none := by
  induction ks with
  | nil => rfl
  | cons x xs ih =>
    rw [map_cons, get?_cons, hf, ih]
    by_cases h : x = k
    · subst h; simp
    · rw [if_neg h]; simp [Ne.symm h]

theorem mem_iff_get?_id {t : List κ} : k ∈ t ↔ get? id k t = some k := by
  induction t with
  | nil => simp
  | cons x xs ih =>
    rw [get?_cons, mem_cons, ih]
    by_cases h : x = k
    · simp [h]
    · simp [h, Ne.symm h]

theorem mem_putAll_id {rs t : List κ} : k ∈ putAll id rs t ↔ k ∈ rs ∨ k ∈ t := by
  rw [mem_iff_get?_id, get?_putAll]
  cases hfind : rs.reverse.find? fun r => id r = k with
  | none =>
    have hrs : k ∉ rs := by
      intro hk
      have := find?_eq_none.mp hfind k (mem_reverse.mpr hk)
      simp at this
    simp [hrs, mem_iff_get?_id]
  | some r =>
    have hr : r = k := by simpa using find?_some hfind
    have hmem : r ∈ rs := mem_reverse.mp (mem_of_find?_eq_some hfind)
    subst hr
    simp [hmem]

end Table
