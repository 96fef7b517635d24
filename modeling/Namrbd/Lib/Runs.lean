import Namrbd.Lib.Window

/-!
# Runs and tilings

A sequence is stored as runs: a run keeps its first element and its length, and
`value a k` is the `k`-th element of a run that began with `a`. `runs` is the greedy
decomposition, and `expand` undoes it whenever `ext` is sound for `value`.

Placed at consecutive positions, runs tile an interval (`Tiles`): a first-match search
and the flattened sequence agree, and writing the records one after the other into a
buffer leaves the flattened sequence.
-/

namespace Runs

open List Window

variable {α β : Type*}

/-! ## The greedy decomposition -/

/-- The runs of `l`, with a run of `n` elements begun by `first` in progress. -/
def runsFrom (ext : α → Nat → α → Bool) (first : α) (n : Nat) : List α → List (α × Nat)
  | [] => [(first, n)]
  | b :: l =>
    if ext first n b then runsFrom ext first (n + 1) l
    else (first, n) :: runsFrom ext b 1 l

def runs (ext : α → Nat → α → Bool) : List α → List (α × Nat)
  | [] => []
  | a :: l => runsFrom ext a 1 l

def elems (value : α → Nat → α) (r : α × Nat) : List α :=
  (List.range r.2).map (value r.1)

/-- The sequence that a list of runs stands for. -/
def expand (value : α → Nat → α) (rs : List (α × Nat)) : List α :=
  rs.flatMap (elems value)

variable {rs : List (α × Nat)}

theorem runs_replicate {ext : α → Nat → α → Bool} {a : α} (h : ∀ n, ext a n a = true) (n : Nat) :
    runs ext (replicate (n + 1) a) = [(a, n + 1)] := by
  have hfrom : ∀ k, runsFrom ext a k (replicate n a) = [(a, k + n)] := by
    induction n with
    | zero => exact fun _ => rfl
    | succ n ih =>
      intro k
      rw [replicate_succ, runsFrom, if_pos (h k), ih, Nat.add_right_comm]
      rfl
  rw [replicate_succ, runs, hfrom, Nat.add_comm]

theorem elems_succ (value : α → Nat → α) (a : α) (n : Nat) :
    elems value (a, n + 1) = elems value (a, n) ++ [value a n] := by
  simp [elems, range_succ]

variable {ext : α → Nat → α → Bool} {value : α → Nat → α} {l : List α} {mk : Nat → α → Nat → β}

section

variable (hext : ∀ a n b, ext a n b = true → value a n = value b 0)

include hext

theorem expand_runsFrom (l : List α) (first : α) (n : Nat) :
    expand value (runsFrom ext first n l) = elems value (first, n) ++ l.map (value · 0) := by
  induction l generalizing first n with
  | nil => simp [runsFrom, expand]
  | cons b l ih =>
    unfold runsFrom
    split
    · next h =>
      rw [ih first, elems_succ, hext first n b h, append_assoc]
      rfl
    have hcons : expand value ((first, n) :: runsFrom ext b 1 l) =
        elems value (first, n) ++ expand value (runsFrom ext b 1 l) := by
      simp [expand]
    rw [hcons, ih b]
    rfl

/-- Expanding the greedy decomposition gives the sequence back, each element as the
first of its run, when continuing a run is sound. -/
theorem expand_runs : expand value (runs ext l) = l.map (value · 0) := by
  cases l with
  | nil => rfl
  | cons a l =>
    unfold runs
    rw [expand_runsFrom hext l a]
    rfl

end

theorem runsFrom_pos {first : α} {n : Nat} (hn : 0 < n) : ∀ r ∈ runsFrom ext first n l, 0 < r.2 := by
  induction l generalizing first n with
  | nil =>
    intro r hr
    rw [runsFrom, mem_singleton] at hr
    exact hr ▸ hn
  | cons b l ih =>
    unfold runsFrom
    split
    · exact ih (Nat.succ_pos n)
    · exact forall_mem_cons.mpr ⟨hn, ih Nat.one_pos⟩

theorem runsFrom_head (ext : α → Nat → α → Bool) (l : List α) (first : α) (n : Nat) :
    ∃ k rs, runsFrom ext first n l = (first, k) :: rs ∧ n ≤ k := by
  induction l generalizing n with
  | nil => exact ⟨n, [], rfl, Nat.le_refl n⟩
  | cons b l ih =>
    unfold runsFrom
    split
    · obtain ⟨k, rs, hruns, hk⟩ := ih (n + 1)
      exact ⟨k, rs, hruns, Nat.le_of_succ_le hk⟩
    · exact ⟨n, _, rfl, Nat.le_refl n⟩

theorem runs_pos (ext : α → Nat → α → Bool) (l : List α) : ∀ r ∈ runs ext l, 0 < r.2 := by
  cases l with
  | nil => intro r hr; cases hr
  | cons a l => exact runsFrom_pos Nat.one_pos

section Tilings

variable (st ct : β → Nat)

/-- Consecutive non-empty records that cover `[start, stop)`. -/
def Tiles : Nat → List β → Nat → Prop
  | start, [], stop => start = stop
  | start, e :: es, stop => st e = start ∧ 0 < ct e ∧ Tiles (start + ct e) es stop

/-- The sequence a list of records stands for. -/
def flatten (val : β → Nat → α) (es : List β) : List α :=
  es.flatMap fun e => (List.range (ct e)).map (val e)

variable {st ct} {start stop : Nat} {es : List β}

theorem Tiles.le (h : Tiles st ct start es stop) : start ≤ stop := by
  induction es generalizing start with
  | nil => exact Nat.le_of_eq h
  | cons e es ih => exact Nat.le_trans (Nat.le_add_right _ _) (ih h.2.2)

section

variable (val : β → Nat → α) (h : Tiles st ct start es stop)

include val h

theorem Tiles.length_flatten : (flatten ct val es).length = stop - start := by
  induction es generalizing start with
  | nil => simp only [Tiles] at h; simp [flatten, h]
  | cons e es ih =>
    have hle := h.2.2.le
    have hlen := ih h.2.2
    simp only [flatten, flatMap_cons, length_append, length_map, length_range] at hlen ⊢
    omega

theorem Tiles.find?_flatten {c : Nat} (hge : start ≤ c) (hlt : c < stop) :
    ∃ e, e ∈ es ∧ es.find? (fun e => decide (st e ≤ c ∧ c < st e + ct e)) = some e ∧
      st e ≤ c ∧ c < st e + ct e ∧
      (flatten ct val es)[c - start]? = some (val e (c - st e)) := by
  induction es generalizing start with
  | nil => simp only [Tiles] at h; omega
  | cons e es ih =>
    obtain ⟨hst, hct, htl⟩ := h
    have hsplit : flatten ct val (e :: es) =
        (range (ct e)).map (val e) ++ flatten ct val es := by
      simp [flatten]
    rw [hsplit]
    by_cases hc : c < st e + ct e
    · have hin : decide (st e ≤ c ∧ c < st e + ct e) = true := decide_eq_true ⟨by omega, hc⟩
      refine ⟨e, mem_cons_self, ?_, by omega, hc, ?_⟩
      · rw [find?_cons, hin]
      · have hidx : c - start < ct e := by omega
        rw [getElem?_append_left (by simpa using hidx), getElem?_map,
          getElem?_range hidx, Option.map_some, hst]
    · have hout : decide (st e ≤ c ∧ c < st e + ct e) = false := decide_eq_false fun hin => hc hin.2
      obtain ⟨e', hmem, hfind, hge', hlt', hget⟩ := ih htl (by omega)
      refine ⟨e', mem_cons_of_mem e hmem, ?_, hge', hlt', ?_⟩
      · rw [find?_cons, hout]
        exact hfind
      rw [getElem?_append_right (by simp only [length_map, length_range]; omega), ← hget]
      congr 1
      simp only [length_map, length_range]
      omega

theorem Tiles.foldl_overlay_aux {base : Nat} (hbase : base ≤ start) :
    ∀ buf : List α, buf.length = stop - base →
      es.foldl (fun b e => overlay b (st e - base) ((range (ct e)).map (val e))) buf
        = buf.take (start - base) ++ flatten ct val es := by
  induction es generalizing start with
  | nil =>
    intro buf hlen
    simp only [Tiles] at h
    simp [flatten, take_of_length_le, hlen, h]
  | cons e es ih =>
    intro buf hlen
    obtain ⟨hst, hct, htl⟩ := h
    have hle := htl.le
    have hroom : st e - base + ((range (ct e)).map (val e)).length ≤ buf.length := by
      simp only [length_map, length_range]; omega
    rw [foldl_cons, ih htl (by omega) _ (by rw [length_overlay hroom, hlen])]
    have htake : (overlay buf (st e - base) ((range (ct e)).map (val e))).take
          (start + ct e - base) =
        buf.take (start - base) ++ (range (ct e)).map (val e) := by
      unfold overlay
      rw [take_append_of_le_length (by
        simp only [length_append, length_take, length_map, length_range]
        omega), take_of_length_le (by
        simp only [length_append, length_take, length_map, length_range]
        omega), hst]
    rw [htake]
    simp [flatten, append_assoc]

theorem Tiles.foldl_overlay (buf : List α) (hlen : buf.length = stop - start) :
    es.foldl (fun b e => overlay b (st e - start) ((range (ct e)).map (val e))) buf
      = flatten ct val es := by
  rw [h.foldl_overlay_aux val (Nat.le_refl start) buf hlen]
  simp

end

theorem Tiles.mem_bounds (h : Tiles st ct start es stop) :
    ∀ e ∈ es, start ≤ st e ∧ st e + ct e ≤ stop ∧ 0 < ct e := by
  induction es generalizing start with
  | nil => intro e he; cases he
  | cons d es ih =>
    intro e he
    obtain ⟨hst, hct, htl⟩ := h
    rcases mem_cons.mp he with rfl | he
    · have := htl.le
      exact ⟨by omega, by omega, hct⟩
    · obtain ⟨h1, h2, h3⟩ := ih htl e he
      exact ⟨by omega, h2, h3⟩

theorem Tiles.eq_of_mem {c : Nat} (h : Tiles st ct start es stop) {e e' : β} (he : e ∈ es)
    (he' : e' ∈ es) (hc : st e ≤ c ∧ c < st e + ct e) (hc' : st e' ≤ c ∧ c < st e' + ct e') :
    e = e' := by
  induction es generalizing start with
  | nil => cases he
  | cons d es ih =>
    obtain ⟨hst, hct, htl⟩ := h
    have hrest : ∀ x ∈ es, start + ct d ≤ st x := fun x hx => (htl.mem_bounds x hx).1
    rcases mem_cons.mp he with heq | hmem <;> rcases mem_cons.mp he' with heq' | hmem'
    · rw [heq, heq']
    · have := hrest e' hmem'
      subst heq
      omega
    · have := hrest e hmem
      subst heq'
      omega
    · exact ih htl hmem hmem'

end Tilings

/-! ## Runs placed at consecutive positions -/

def place (mk : Nat → α → Nat → β) : Nat → List (α × Nat) → List β
  | _, [] => []
  | start, (a, n) :: rs => mk start a n :: place mk (start + n) rs

theorem place_tiles {st ct : β → Nat} (hst : ∀ s a n, st (mk s a n) = s)
    (hct : ∀ s a n, ct (mk s a n) = n) (value : α → Nat → α) (hpos : ∀ r ∈ rs, 0 < r.2)
    (start : Nat) : Tiles st ct start (place mk start rs) (start + (expand value rs).length) := by
  induction rs generalizing start with
  | nil => exact rfl
  | cons r rs ih =>
    obtain ⟨a, n⟩ := r
    refine ⟨hst start a n, by rw [hct]; exact hpos (a, n) mem_cons_self, ?_⟩
    rw [hct]
    have htl := ih (fun r hr => hpos r (mem_cons_of_mem _ hr)) (start + n)
    have hlen : (expand value ((a, n) :: rs)).length = n + (expand value rs).length := by
      simp [expand, elems]
    rw [hlen, ← Nat.add_assoc]
    exact htl

theorem flatten_place {ct : β → Nat} {val : β → Nat → α} (hct : ∀ s a n, ct (mk s a n) = n)
    (hval : ∀ s a n k, val (mk s a n) k = value a k) (rs : List (α × Nat)) (start : Nat) :
    flatten ct val (place mk start rs) = expand value rs := by
  induction rs generalizing start with
  | nil => rfl
  | cons r rs ih =>
    obtain ⟨a, n⟩ := r
    have hhead : (range (ct (mk start a n))).map (val (mk start a n)) = elems value (a, n) := by
      rw [hct]
      exact map_congr_left fun k _ => hval start a n k
    have htail := ih (start + n)
    simp only [flatten, expand, place, flatMap_cons] at htail ⊢
    rw [hhead, htail]

theorem place_runs_map {f : α → α} (hext : ∀ a n b, ext (f a) n (f b) = ext a n b)
    (hmk : ∀ s a n, mk s (f a) n = mk s a n) (start : Nat) (l : List α) :
    place mk start (runs ext (l.map f)) = place mk start (runs ext l) := by
  have hfrom : ∀ (l : List α) first n start, place mk start (runsFrom ext (f first) n (l.map f)) =
      place mk start (runsFrom ext first n l) := by
    intro l
    induction l with
    | nil => simp [runsFrom, place, hmk]
    | cons b l ih =>
      intro first n start
      rw [map_cons, runsFrom, runsFrom, hext]
      split
      · exact ih first (n + 1) start
      · rw [place, place, hmk, ih b]
  cases l with
  | nil => rfl
  | cons a l => exact hfrom l a 1 start

theorem mem_place {start : Nat} {e : β} (h : e ∈ place mk start rs) :
    ∃ s r, r ∈ rs ∧ e = mk s r.1 r.2 := by
  induction rs generalizing start with
  | nil => cases h
  | cons r rs ih =>
    obtain ⟨a, n⟩ := r
    rcases mem_cons.mp h with rfl | h
    · exact ⟨start, (a, n), mem_cons_self, rfl⟩
    · obtain ⟨s, r, hr, rfl⟩ := ih h
      exact ⟨s, r, mem_cons_of_mem _ hr, rfl⟩

end Runs
