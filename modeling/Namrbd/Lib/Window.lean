import Mathlib.Data.List.Basic
import Mathlib.Tactic.Ring

/-!
# Windows and patches of flat arrays

A buffer is a list, a flat array is a function on positions. `overlay` is an
assignment to a slice of a buffer (`copy(buf[pos:pos+len(data)], data)`),
`slice` its reading counterpart, `window` the buffer a flat array shows between
two positions, and `patch` the assignment to a slice of a flat array. The
lemmas say what every operation leaves at one position, and how windows meet
overlays and patches.
-/

namespace Window

open List Option

variable {α : Type*}

/-! ## Slices of a buffer -/

/-- `copy(buf[pos:pos+len(data)], data)`. -/
def overlay (buf : List α) (pos : Nat) (data : List α) : List α :=
  buf.take pos ++ data ++ buf.drop (pos + data.length)

/-- `buf[pos:pos+len]`. -/
def slice (buf : List α) (pos len : Nat) : List α :=
  (buf.drop pos).take len

variable {buf data : List α} {pos len start i : Nat} {f : Nat → α}

theorem length_overlay (h : pos + data.length ≤ buf.length) :
    (overlay buf pos data).length = buf.length := by
  simp only [overlay, length_append, length_take, length_drop]
  omega

theorem getElem?_overlay (h : pos + data.length ≤ buf.length) (i : Nat) :
    (overlay buf pos data)[i]? =
      if pos ≤ i ∧ i < pos + data.length then data[i - pos]? else buf[i]? := by
  have htake : (buf.take pos).length = pos := by
    rw [length_take]; omega
  unfold overlay
  by_cases h1 : i < pos
  · rw [getElem?_append_left (by simp only [length_append]; omega),
      getElem?_append_left (by omega), getElem?_take_of_lt h1,
      if_neg (by omega)]
  by_cases h2 : i < pos + data.length
  · rw [getElem?_append_left (by simp only [length_append]; omega),
      getElem?_append_right (by omega), htake, if_pos ⟨by omega, h2⟩]
  rw [getElem?_append_right (by simp only [length_append]; omega), getElem?_drop, if_neg (by omega)]
  congr 1
  simp only [length_append]
  omega

theorem overlay_whole (h : data.length = buf.length) : overlay buf 0 data = data := by
  simp [overlay, h]

theorem length_slice (h : pos + len ≤ buf.length) : (slice buf pos len).length = len := by
  simp only [slice, length_take, length_drop]
  omega

theorem getElem?_slice (buf : List α) (pos len i : Nat) :
    (slice buf pos len)[i]? = if i < len then buf[pos + i]? else none := by
  unfold slice
  rw [getElem?_take, getElem?_drop]

/-! ## Windows of a flat array -/

/-- The buffer a flat array shows on `[pos, pos + len)`. -/
def window (f : Nat → α) (pos len : Nat) : List α :=
  (List.range len).map fun i => f (pos + i)

@[simp] theorem length_window (f : Nat → α) (pos len : Nat) : (window f pos len).length = len := by
  simp [window]

theorem getElem?_window (f : Nat → α) (pos len i : Nat) :
    (window f pos len)[i]? = if i < len then some (f (pos + i)) else none := by
  unfold window
  split
  · next hi => rw [getElem?_map, getElem?_range hi, map_some]
  · next hi => exact getElem?_eq_none (by simpa using hi)

theorem window_congr {g : Nat → α} (h : ∀ i, pos ≤ i → i < pos + len → f i = g i) :
    window f pos len = window g pos len := by
  apply map_congr_left
  intro i hi
  have := mem_range.mp hi
  exact h (pos + i) (by omega) (by omega)

theorem window_eq_window_iff {g : Nat → α} :
    window f pos len = window g pos len ↔ ∀ i, pos ≤ i → i < pos + len → f i = g i := by
  refine ⟨fun h i hlo hhi => ?_, window_congr⟩
  have hget := congrArg (·[i - pos]?) h
  simp only [getElem?_window, if_pos (show i - pos < len by omega), some.injEq] at hget
  rwa [Nat.add_sub_cancel' hlo] at hget

theorem eq_window_iff : buf = window f pos len ↔
      buf.length = len ∧ ∀ i, i < len → buf[i]? = some (f (pos + i)) := by
  constructor
  · rintro rfl
    refine ⟨length_window f pos len, fun i hi => ?_⟩
    rw [getElem?_window, if_pos hi]
  rintro ⟨hlen, hget⟩
  apply ext_getElem?
  intro i
  rw [getElem?_window]
  split
  · next hi => exact hget i hi
  · next hi => exact getElem?_eq_none (by omega)

theorem window_const (a : α) (pos len : Nat) :
    window (fun _ => a) pos len = replicate len a := by
  simp [window]

theorem slice_window (f : Nat → α) {n : Nat} (h : start + n ≤ len) :
    slice (window f pos len) start n = window f (pos + start) n := by
  rw [eq_window_iff]
  refine ⟨length_slice (by simpa using h), fun i hi => ?_⟩
  rw [getElem?_slice, if_pos hi, getElem?_window, if_pos (by omega), Nat.add_assoc]

/-! ## Patches of a flat array -/

/-- The flat array after `data` was stored at `[pos, pos + data.length)`. -/
def patch (f : Nat → α) (pos : Nat) (data : List α) : Nat → α := fun i =>
  if pos ≤ i then data[i - pos]?.getD (f i) else f i

theorem patch_of_lt (h : i < pos) : patch f pos data i = f i := by
  simp [patch, Nat.not_le.mpr h]

theorem patch_of_ge (h : pos + data.length ≤ i) : patch f pos data i = f i := by
  unfold patch
  rw [getElem?_eq_none (by omega), getD_none, ite_self]

theorem patch_of_mem {a : α} (hpos : pos ≤ i) (h : data[i - pos]? = some a) :
    patch f pos data i = a := by
  simp [patch, hpos, h]

theorem patch_window (f h : Nat → α) (pos len i : Nat) :
    patch f pos (window h pos len) i = if pos ≤ i ∧ i < pos + len then h i else f i := by
  split
  · next hi =>
    refine patch_of_mem hi.1 ?_
    rw [getElem?_window, if_pos (by omega), Nat.add_sub_cancel' hi.1]
  next hi =>
  by_cases hlt : i < pos
  · exact patch_of_lt hlt
  · exact patch_of_ge (by rw [length_window]; omega)

theorem window_patch_overlay (f : Nat → α) (h : start + data.length ≤ len) :
    window (patch f (pos + start) data) pos len =
      overlay (window f pos len) start data := by
  symm
  rw [eq_window_iff]
  have hle : start + data.length ≤ (window f pos len).length := by simpa using h
  refine ⟨by rw [length_overlay hle, length_window], fun i hi => ?_⟩
  rw [getElem?_overlay hle]
  split
  · next hin =>
    have hlt : i - start < data.length := by omega
    rw [getElem?_eq_getElem hlt, patch_of_mem (by omega) (a := data[i - start])]
    rw [show pos + i - (pos + start) = i - start by omega]
    exact getElem?_eq_getElem hlt
  · next hin =>
    rw [getElem?_window, if_pos hi]
    congr 1
    by_cases hlt : i < start
    · rw [patch_of_lt (by omega)]
    · rw [patch_of_ge (by omega)]

/-- Merging the part of `payload` that falls into `[pos, pos + len)` into a buffer that
shows `f` outside the payload gives the window of `f`. -/
theorem overlay_slice_eq_window {payload : List α} {n : Nat} (hbuf : buf.length = len)
    (hpay : payload.length = n) (hlo : start < pos + len) (hhi : pos < start + n)
    (hin : ∀ i, start ≤ i → i < start + n → payload[i - start]? = some (f i))
    (hout : ∀ i, pos ≤ i → i < pos + len → ¬(start ≤ i ∧ i < start + n) →
      buf[i - pos]? = some (f i)) :
    overlay buf (max start pos - pos) (slice payload (max start pos - start)
      (min (start + n) (pos + len) - max start pos)) = window f pos len := by
  have hslice : (slice payload (max start pos - start)
      (min (start + n) (pos + len) - max start pos)).length =
      min (start + n) (pos + len) - max start pos := length_slice (by omega)
  have hle : max start pos - pos + (slice payload (max start pos - start)
      (min (start + n) (pos + len) - max start pos)).length ≤ buf.length := by omega
  rw [eq_window_iff]
  refine ⟨by rw [length_overlay hle, hbuf], fun i hi => ?_⟩
  rw [getElem?_overlay hle, hslice, getElem?_slice]
  split
  · next h =>
    rw [if_pos (by omega), show max start pos - start + (i - (max start pos - pos)) =
      pos + i - start by omega]
    exact hin (pos + i) (by omega) (by omega)
  · next h =>
    have := hout (pos + i) (by omega) (by omega) (by omega)
    rwa [Nat.add_sub_cancel_left] at this

/-! ## Assignments in a loop -/

/-- `for c in cs { l[c - base] = v(c) }`: each index holds the value of its own step. -/
theorem getElem?_foldl_set (base : Nat) (v : Nat → α) {cs : List Nat} (hcs : ∀ c ∈ cs, base ≤ c)
    (l : List α) (i : Nat) :
    (cs.foldl (fun l c => l.set (c - base) (v c)) l)[i]? =
      if base + i ∈ cs then l[i]?.map fun _ => v (base + i) else l[i]? := by
  induction cs generalizing l with
  | nil => simp
  | cons c cs ih =>
    have hc : base ≤ c := hcs c mem_cons_self
    rw [foldl_cons, ih (fun x hx => hcs x (mem_cons_of_mem c hx))]
    have hset : (l.set (c - base) (v c))[i]? =
        if base + i = c then l[i]?.map fun _ => v (base + i) else l[i]? := by
      rw [getElem?_set']
      by_cases h : c - base = i
      · have hci : base + i = c := by omega
        rw [if_pos h, if_pos hci, hci]
        rfl
      · rw [if_neg h, if_neg (by omega)]
    rw [hset]
    by_cases hmem : base + i ∈ cs
    · rw [if_pos hmem, if_pos (mem_cons_of_mem c hmem)]
      split
      · cases l[i]? <;> rfl
      · rfl
    · rw [if_neg hmem]
      by_cases hci : base + i = c
      · rw [if_pos hci, if_pos (hci ▸ mem_cons_self)]
      · rw [if_neg hci, if_neg (by simp [hci, hmem])]

/-- The loop `for i in is { l[i] = k(i, l[i]) }` over distinct indices. -/
theorem getElem?_foldl_modify (k : Nat → α → α) (z : α) {is : List Nat} (hnodup : is.Nodup)
    (l : List α) (j : Nat) :
    (is.foldl (fun l i => l.set i (k i (l[i]?.getD z))) l)[j]? =
      if j ∈ is then l[j]?.map (k j) else l[j]? := by
  induction is generalizing l with
  | nil => simp
  | cons i is ih =>
    obtain ⟨hi, hrest⟩ := nodup_cons.mp hnodup
    rw [foldl_cons, ih hrest]
    by_cases hj : j = i
    · subst hj
      rw [if_neg hi, if_pos mem_cons_self]
      cases hget : l[j]? with
      | none => rw [getElem?_set]; simp [getElem?_eq_none_iff.mp hget]
      | some a =>
        have hlt := (List.getElem?_eq_some_iff.mp hget).1
        rw [getElem?_set_self hlt]
        rfl
    · rw [getElem?_set_ne (Ne.symm hj)]
      simp [hj]

end Window
