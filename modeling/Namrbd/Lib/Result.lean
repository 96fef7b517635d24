import Mathlib.Data.List.Forall2

/-!
# Computations that may fail

Rules for `Except`: what a successful bind, map or fold went through, and how a
loop whose every step succeeds runs to its end.
-/

namespace Result

open List Option

universe u v w

variable {ε : Type u} {α β : Type v} {f : α → Except ε β} {x : Except ε α}
  {k : PUnit.{v + 1} → Except ε α} {b : β} {err : ε}

theorem bind_eq_ok : (x >>= f) = .ok b ↔ ∃ a, x = .ok a ∧ f a = .ok b := by
  cases x with
  | error err =>
    constructor
    · intro h
      cases h
    · rintro ⟨a, h, -⟩
      cases h
  | ok a =>
    constructor
    · exact fun h => ⟨a, rfl, h⟩
    · rintro ⟨a', h, hf⟩
      cases h
      exact hf

@[simp] theorem pure_eq_ok (a : α) : (pure a : Except ε α) = .ok a := rfl

@[simp] theorem ok_bind (a : α) (f : α → Except ε β) : (Except.ok a >>= f) = f a := rfl

@[simp] theorem error_bind (err : ε) (f : α → Except ε β) :
    (Except.error err >>= f) = .error err := rfl

theorem bind_eq_error :
    (x >>= f) = .error err ↔ x = .error err ∨ ∃ a, x = .ok a ∧ f a = .error err := by
  cases x with
  | error err' | ok a => simp

theorem map_eq_ok {f : α → β} : x.map f = .ok b ↔ ∃ a, x = .ok a ∧ f a = b := by
  cases x with
  | error err | ok a => simp [Except.map]

theorem mapError_eq_ok {ε' : Type*} {f : ε → ε'} {a : α} : x.mapError f = .ok a ↔ x = .ok a := by
  cases x with
  | error err | ok a => simp [Except.mapError]

def error? : Except ε α → Option ε
  | .error err => some err
  | .ok _ => none

theorem eq_error_of_error? (h : error? x = some err) : x = .error err := by
  cases x with
  | error err' => rw [some.inj h]
  | ok a => cases h

theorem throwIf_eq_ok {p : Prop} [Decidable p] {a : α} :
    (if p then (throw err >>= fun r => k r) else k ⟨⟩) = .ok a ↔ ¬ p ∧ k ⟨⟩ = .ok a := by
  by_cases h : p
  · rw [if_pos h]
    exact ⟨fun h' => (nomatch h'), fun h' => absurd h h'.1⟩
  · rw [if_neg h]
    exact ⟨fun h' => ⟨h, h'⟩, fun h' => h'.2⟩

theorem throwIf_eq_error {p : Prop} [Decidable p] {err' : ε} :
    (if p then (throw err >>= fun r => k r) else k ⟨⟩) = .error err' ↔
      p ∧ err = err' ∨ ¬ p ∧ k ⟨⟩ = .error err' := by
  by_cases h : p
  · rw [if_pos h]
    exact ⟨fun h' => .inl ⟨h, Except.error.inj h'⟩,
      fun h' => h'.elim (fun h' => congrArg _ h'.2) fun h' => absurd h h'.1⟩
  · rw [if_neg h]
    exact ⟨fun h' => .inr ⟨h, h'⟩, fun h' => h'.elim (fun h' => absurd h'.1 h) fun h' => h'.2⟩

theorem mapM_eq_ok {l : List α} {bs : List β} :
    l.mapM f = .ok bs ↔ Forall₂ (fun a b => f a = .ok b) l bs := by
  induction l generalizing bs with
  | nil =>
    rw [mapM_nil, forall₂_nil_left_iff]
    constructor
    · intro h
      cases h
      rfl
    · rintro rfl
      rfl
  | cons a l ih =>
    rw [mapM_cons, bind_eq_ok, forall₂_cons_left_iff]
    constructor
    · rintro ⟨b, hb, hrest⟩
      obtain ⟨bs', hbs, hcons⟩ := bind_eq_ok.mp hrest
      cases hcons
      exact ⟨b, bs', hb, ih.mp hbs, rfl⟩
    · rintro ⟨b, bs', hb, hbs, rfl⟩
      exact ⟨b, hb, bind_eq_ok.mpr ⟨bs', ih.mpr hbs, rfl⟩⟩

theorem mapM_map_eq_ok_self {g : β → α} {l : List β} :
    (l.map g).mapM f = .ok l ↔ ∀ b ∈ l, f (g b) = .ok b := by
  rw [mapM_eq_ok, forall₂_map_left_iff, forall₂_same]

theorem forM_eq_ok {f : α → Except ε PUnit} {l : List α} :
    l.forM f = .ok ⟨⟩ ↔ ∀ a ∈ l, f a = .ok ⟨⟩ := by
  induction l with
  | nil => exact ⟨fun _ a ha => (nomatch ha), fun _ => rfl⟩
  | cons a l ih =>
    change (f a >>= fun _ => l.forM f) = _ ↔ _
    rw [bind_eq_ok, forall_mem_cons, ← ih]
    constructor
    · rintro ⟨⟨⟩, ha, hl⟩
      exact ⟨ha, hl⟩
    · rintro ⟨ha, hl⟩
      exact ⟨⟨⟩, ha, hl⟩

theorem mapM_ok {P : α → β → Prop} {l : List α} (h : ∀ a ∈ l, ∃ b, f a = .ok b ∧ P a b) :
    ∃ bs, l.mapM f = .ok bs ∧ Forall₂ P l bs := by
  induction l with
  | nil => exact ⟨[], rfl, .nil⟩
  | cons a l ih =>
    obtain ⟨b, hb, hP⟩ := h a mem_cons_self
    obtain ⟨bs, hbs, hrel⟩ := ih fun a ha => h a (mem_cons_of_mem _ ha)
    refine ⟨b :: bs, ?_, .cons hP hrel⟩
    rw [mapM_cons, hb, ok_bind, hbs]
    rfl

/-- A loop, for a logic `P` of programs with a rule for sequences; `Inv` speaks of the elements
done, the value and the state. -/
theorem foldlM_induction {M : Type v → Type w} [Monad M] {σ : Type*} {β : Type v}
    (P : M β → (β → σ → Prop) → σ → Prop) (hbind : ∀ x f post post' s, P x post s →
      (∀ b t, post b t → P (f b) post' t) → P (x >>= f) post' s) {f : β → α → M β}
    (Inv : List α → β → σ → Prop) {l : List α} {b : β} {s : σ}
    (hend : ∀ b s, Inv l b s → P (pure b) (Inv l) s) (hstart : Inv [] b s)
    (hstep : ∀ done a rest b s, l = done ++ a :: rest → Inv done b s →
      P (f b a) (Inv (done ++ [a])) s) : P (l.foldlM f b) (Inv l) s := by
  have hloop : ∀ rest done b s, l = done ++ rest → Inv done b s →
      P (rest.foldlM f b) (Inv l) s := by
    intro rest
    induction rest with
    | nil =>
      intro done b s hl hinv
      rw [append_nil] at hl
      exact hend b s (hl ▸ hinv)
    | cons a rest ih =>
      intro done b s hl hinv
      exact hbind _ _ _ _ s (hstep done a rest b s hl hinv) fun b' t hb' =>
        ih (done ++ [a]) b' t (by simp [hl]) hb'
  exact hloop l [] b s rfl hstart

theorem foldlM_ok {f : β → α → Except ε β} (Inv : List α → β → Prop) {l : List α}
    (hstart : Inv [] b) (hstep : ∀ done a rest b, l = done ++ a :: rest → Inv done b →
      ∃ b', f b a = .ok b' ∧ Inv (done ++ [a]) b') : ∃ b', l.foldlM f b = .ok b' ∧ Inv l b' := by
  refine foldlM_induction (fun (x : Except ε β) post s => ∃ b, x = .ok b ∧ post b s) ?_
    (fun done b _ => Inv done b) (fun b _ h => ⟨b, rfl, h⟩) hstart
    (fun done a rest b _ => hstep done a rest b) (s := ())
  rintro x f post post' s ⟨b, rfl, h⟩ hf
  exact hf b s h

theorem foldlM_ok_of_forall {f : β → α → Except ε β} (Inv : β → Prop) {l : List α} (hstart : Inv b)
    (hstep : ∀ a ∈ l, ∀ b, Inv b → ∃ b', f b a = .ok b' ∧ Inv b') :
    ∃ b', l.foldlM f b = .ok b' ∧ Inv b' :=
  foldlM_ok (fun _ => Inv) hstart fun _ a _ b hl hinv =>
    hstep a (by rw [hl]; exact mem_append_right _ mem_cons_self) b hinv

theorem foldlM_of_ok {f : β → α → Except ε β} (Inv : List α → β → Prop) {l : List α} {b' : β}
    (h : l.foldlM f b = .ok b') (hstart : Inv [] b)
    (hstep : ∀ done a rest b b', l = done ++ a :: rest → Inv done b → f b a = .ok b' →
      Inv (done ++ [a]) b') : Inv l b' := by
  refine foldlM_induction (fun (x : Except ε β) post s => ∀ b, x = .ok b → post b s) ?_
    (fun done b _ => Inv done b) ?_ hstart
    (fun done a rest b _ hl hinv b' => hstep done a rest b b' hl hinv) (s := ()) b' h
  · intro x f post post' s hx hf b' h
    obtain ⟨b, hb, h⟩ := bind_eq_ok.mp h
    exact hf b s (hx b hb) b' h
  · rintro b s hinv _ ⟨⟩
    exact hinv

theorem foldlM_of_forall {f : β → α → Except ε β} (Inv : β → Prop) {l : List α} {b' : β}
    (h : l.foldlM f b = .ok b') (hstart : Inv b)
    (hstep : ∀ a ∈ l, ∀ b b', Inv b → f b a = .ok b' → Inv b') : Inv b' :=
  foldlM_of_ok (fun _ => Inv) h hstart fun _ a _ b b' hl =>
    hstep a (by rw [hl]; exact mem_append_right _ mem_cons_self) b b'

/-- Steps that change what a state shows by operations that commute may be taken in any order. -/
theorem foldlM_perm {κ ν : Type*} {f : β → α → Except ε β} (Inv : β → Prop) (view : β → κ → ν)
    (put : α → κ → ν → ν) {l l' : List α} (hperm : l ~ l') (hstart : Inv b)
    (hstep : ∀ a ∈ l, ∀ b, Inv b → ∃ b', f b a = .ok b' ∧ Inv b' ∧
      ∀ k, view b' k = put a k (view b k))
    (hcomm : ∀ a ∈ l, ∀ a' ∈ l, ∀ k v, put a' k (put a k v) = put a k (put a' k v)) :
    ∃ b₁ b₂, l.foldlM f b = .ok b₁ ∧ l'.foldlM f b = .ok b₂ ∧ ∀ k, view b₁ k = view b₂ k := by
  have hrun : ∀ l₁ ⊆ l, ∃ b', l₁.foldlM f b = .ok b' ∧ Inv b' ∧
      ∀ k, view b' k = l₁.foldl (fun v a => put a k v) (view b k) := by
    intro l₁ hsub
    refine foldlM_ok (fun done b' => Inv b' ∧
      ∀ k, view b' k = done.foldl (fun v a => put a k v) (view b k)) ⟨hstart, fun _ => rfl⟩ ?_
    rintro done a rest b' rfl ⟨hinv, hview⟩
    obtain ⟨b'', hf, hinv, hput⟩ := hstep a (hsub (by simp)) b' hinv
    exact ⟨b'', hf, hinv, fun k => by rw [hput, hview, foldl_append]; rfl⟩
  obtain ⟨b₁, hb₁, -, hview₁⟩ := hrun l (Subset.refl l)
  obtain ⟨b₂, hb₂, -, hview₂⟩ := hrun l' hperm.symm.subset
  refine ⟨b₁, b₂, hb₁, hb₂, fun k => ?_⟩
  rw [hview₁, hview₂]
  exact hperm.foldl_eq' (fun a ha a' ha' v => hcomm a ha a' ha' k v) _

/-- A loop over a state that gives one value for each element. -/
def mapAccumM {σ : Type v} (f : σ → α → Except ε (β × σ)) : σ → List α → Except ε (List β × σ)
  | s, [] => .ok ([], s)
  | s, a :: l => do
    let (b, s) ← f s a
    let (bs, s) ← mapAccumM f s l
    return (b :: bs, s)

theorem mapAccumM_of_ok {σ : Type v} {f : σ → α → Except ε (β × σ)} (Inv : σ → Prop)
    {R : α → β → Prop} (hstep : ∀ s a b s', Inv s → f s a = .ok (b, s') → R a b ∧ Inv s')
    {l : List α} {s s' : σ} {bs : List β} (hs : Inv s) (h : mapAccumM f s l = .ok (bs, s')) :
    Forall₂ R l bs ∧ Inv s' := by
  induction l generalizing s bs with
  | nil =>
    cases h
    exact ⟨.nil, hs⟩
  | cons a l ih =>
    obtain ⟨⟨b, s1⟩, hb, h⟩ := bind_eq_ok.mp h
    obtain ⟨⟨bs', s2⟩, hbs, h⟩ := bind_eq_ok.mp h
    cases h
    obtain ⟨hR, hs1⟩ := hstep s a b s1 hs hb
    obtain ⟨hrest, hs'⟩ := ih hs1 hbs
    exact ⟨.cons hR hrest, hs'⟩

section Forall₂

variable {σ τ : Type*} {R : σ → τ → Prop} {l : List σ} {l' : List τ}

theorem exists_of_mem_right (h : Forall₂ R l l') {b : τ} (hb : b ∈ l') : ∃ a ∈ l, R a b := by
  induction h with
  | nil => cases hb
  | cons hR _ ih =>
    rcases mem_cons.mp hb with rfl | hb
    · exact ⟨_, mem_cons_self, hR⟩
    · obtain ⟨a, ha, hab⟩ := ih hb
      exact ⟨a, mem_cons_of_mem _ ha, hab⟩

theorem exists_of_mem_left (h : Forall₂ R l l') {a : σ} (ha : a ∈ l) : ∃ b ∈ l', R a b :=
  exists_of_mem_right (Forall₂.flip (R := flip R) h) ha

theorem forall₂_comp {υ : Type*} {S : τ → υ → Prop} {l'' : List υ} (h : Forall₂ R l l')
    (h' : Forall₂ S l' l'') : Forall₂ (fun a c => ∃ b, R a b ∧ S b c) l l'' := by
  induction h generalizing l'' with
  | nil => cases h'; exact .nil
  | cons hR _ ih =>
    cases h' with
    | cons hS h' => exact .cons ⟨_, hR, hS⟩ (ih h')

theorem map_eq_of_forall₂ {f : τ → σ} (h : Forall₂ (fun a b => f b = a) l l') :
    l'.map f = l := by
  rw [← forall₂_eq_eq_eq, forall₂_map_left_iff]
  exact h.flip

end Forall₂

section ToOption

variable {g : α → Except ε (Option β)} {l : List α}

theorem toOption_eq_none (h : ∀ a, x ≠ .ok a) : x.toOption = none := by
  cases x with
  | error err => rfl
  | ok a => exact absurd rfl (h a)

theorem toOption_mapM_eq_none {a : α} (ha : a ∈ l) (h : ∀ b, f a ≠ .ok b) :
    (l.mapM f).toOption = none := by
  refine toOption_eq_none fun bs hbs => ?_
  obtain ⟨b, -, hb⟩ := exists_of_mem_left (mapM_eq_ok.mp hbs) ha
  exact h b hb

theorem toOption_mapM_some (h : ∀ a ∈ l, g a = some <$> f a) :
    (l.mapM g).toOption = (l.mapM f).toOption.map (·.map some) := by
  induction l with
  | nil => rfl
  | cons a l ih =>
    obtain ⟨ha, h⟩ := forall_mem_cons.mp h
    rw [mapM_cons, mapM_cons, ha]
    cases f a with
    | error err => rfl
    | ok b =>
      specialize ih h
      revert ih
      cases l.mapM f <;> cases l.mapM g <;> intro ih
      · rfl
      · cases ih
      · cases ih
      · cases ih
        rfl

/-- Two loops with the same body, except where `Lost`: there the second one fails and the
first goes on. -/
theorem toOption_mapM_eq_iff {Lost : α → Prop}
    (h : ∀ a ∈ l, (Lost a ∧ (∃ out, g a = .ok out) ∧ ∃ err, f a = .error err) ∨
      (¬Lost a ∧ g a = some <$> f a)) :
    (l.mapM g).toOption = (l.mapM f).toOption.map (·.map some) ↔
      ((∃ a ∈ l, Lost a) → ∃ a ∈ l, ∀ out, g a ≠ .ok out) := by
  by_cases hlost : ∃ a ∈ l, Lost a
  · obtain ⟨a, ha, hlost⟩ := hlost
    have hf : (l.mapM f).toOption = none := by
      obtain ⟨-, -, err, herr⟩ | ⟨hnot, -⟩ := h a ha
      · exact toOption_mapM_eq_none ha fun b hb => by rw [herr] at hb; cases hb
      · exact absurd hlost hnot
    rw [hf]
    constructor
    · intro hnone _
      by_contra hall
      obtain ⟨bs, hbs, -⟩ := mapM_ok (f := g) (P := fun _ _ => True) (l := l) fun a' ha' => by
        by_contra hno
        exact hall ⟨a', ha', fun out hout => hno ⟨out, hout, trivial⟩⟩
      rw [hbs] at hnone
      cases hnone
    · intro hfail
      obtain ⟨a', ha', hfail⟩ := hfail ⟨a, ha, hlost⟩
      exact toOption_mapM_eq_none ha' hfail
  · refine ⟨fun _ h' => absurd h' hlost, fun _ => toOption_mapM_some fun a ha => ?_⟩
    exact (h a ha).elim (fun h' => absurd ⟨a, ha, h'.1⟩ hlost) And.right

end ToOption

theorem eq_of_first_not {σ : Type*} {P : σ → Prop} {l l' rest rest' : List σ} {a a' : σ}
    (h : l ++ a :: rest = l' ++ a' :: rest') (hl : ∀ x ∈ l, P x) (ha : ¬ P a)
    (hl' : ∀ x ∈ l', P x) (ha' : ¬ P a') : a = a' := by
  induction l generalizing l' with
  | nil =>
    cases l' with
    | nil => exact (cons.inj h).1
    | cons x l' =>
      obtain ⟨rfl, -⟩ := cons.inj h
      exact absurd (hl' a mem_cons_self) ha
  | cons x l ih =>
    cases l' with
    | nil =>
      obtain ⟨rfl, -⟩ := cons.inj h
      exact absurd (hl x mem_cons_self) ha'
    | cons x' l' =>
      exact ih (cons.inj h).2 (fun y hy => hl y (mem_cons_of_mem _ hy))
        fun y hy => hl' y (mem_cons_of_mem _ hy)

theorem mapM_some {α β : Type} {f : α → Option β} {h : α → β} {l : List α}
    (hf : ∀ a ∈ l, f a = some (h a)) : l.mapM f = some (l.map h) := by
  induction l with
  | nil => rfl
  | cons a l ih =>
    rw [mapM_cons, hf a mem_cons_self, ih fun b hb => hf b (mem_cons_of_mem a hb)]
    rfl

theorem mapM_eq_some {α β : Type} {f : α → Option β} {l : List α} {bs : List β} :
    l.mapM f = some bs ↔ Forall₂ (fun a b => f a = some b) l bs := by
  induction l generalizing bs with
  | nil => simp [forall₂_nil_left_iff, eq_comm]
  | cons a l ih =>
    rw [mapM_cons, forall₂_cons_left_iff]
    constructor
    · intro h
      obtain ⟨b, hb, h⟩ := bind_eq_some_iff.mp h
      obtain ⟨bs', hbs', h⟩ := bind_eq_some_iff.mp h
      exact ⟨b, bs', hb, ih.mp hbs', (some.inj h).symm⟩
    · rintro ⟨b, bs', hb, hrest, rfl⟩
      rw [hb, ih.mpr hrest]
      rfl

def firstSeen {κ : Type*} [DecidableEq κ] (keys : List κ) : List κ :=
  keys.foldl (fun order k => if k ∈ order then order else order ++ [k]) []

/-- The elements of each key, the keys in the order they are first seen. -/
def groups {ι κ : Type*} [DecidableEq κ] (key : ι → κ) (l : List ι) : List (List ι) :=
  (firstSeen (l.map key)).map fun k => l.filter fun a => key a = k

end Result
