import Namrbd.Lib.Result

/-!
# Programs that access a shared store

A process is done with a value, or makes an access to a shared store and goes on
with the answer. What an access may answer and do is given by a relation, so a
store may fail; what others do in between by a second relation.

`wp` is the weakest precondition of a process under both, and `EnsuresFrom` the same
for processes that may fail. `Holds` and `Ensures` are the part of the logic that
does not look at the store. `exec` runs a process alone.
-/

/-- A program that accesses a store by `Act`; an access `act` is answered by `Ans act`. -/
inductive Process (Act : Type) (Ans : Act → Type) (α : Type) where
  | done (a : α)
  | access (act : Act) (next : Ans act → Process Act Ans α)

namespace Process

open List

variable {σ ε γ Act α β : Type} {Ans : Act → Type}

def bind : Process Act Ans α → (α → Process Act Ans β) → Process Act Ans β
  | done a, f => f a
  | access act next, f => access act fun ans => (next ans).bind f

instance : Monad (Process Act Ans) where
  pure := done
  bind := bind

def call (act : Act) : Process Act Ans (Ans act) := access act done

section Logic

variable (answers : (act : Act) → σ → Ans act → σ → Prop) (rely : σ → σ → Prop)
  (allowed : Act → σ → Prop)

/-! ## Weakest preconditions -/

/-- In every execution from a state, with the others interfering by `rely`, every
access is allowed when it is made and the result satisfies `post`. -/
def wp : Process Act Ans α → (α → σ → Prop) → σ → Prop
  | done a, post, s => ∀ t, rely s t → post a t
  | access act next, post, s => ∀ t, rely s t → allowed act t ∧
      ∀ ans u, answers act t ans u → (next ans).wp post u

variable {answers rely allowed} {p : Process Act Ans α} {post : α → σ → Prop}
  {q : Process Act Ans α} {s : σ}

theorem wp_mono {allowed' : Act → σ → Prop} {post' : α → σ → Prop}
    (h : p.wp answers rely allowed post s) (hallowed : ∀ act s, allowed act s → allowed' act s)
    (hpost : ∀ a t, post a t → post' a t) : p.wp answers rely allowed' post' s := by
  induction p generalizing s with
  | done a => exact fun t ht => hpost a t (h t ht)
  | access act next ih =>
    intro t ht
    obtain ⟨hact, hnext⟩ := h t ht
    exact ⟨hallowed act t hact, fun ans u hu => ih ans (hnext ans u hu)⟩

/-- Sequencing: the second process starts from what the first one ensures. -/
theorem wp_bind (hrefl : ∀ s, rely s s) {f : α → Process Act Ans β} {post : β → σ → Prop}
    (h : p.wp answers rely allowed (fun a t => (f a).wp answers rely allowed post t) s) :
    (p >>= f).wp answers rely allowed post s := by
  induction p generalizing s with
  | done a => exact h s (hrefl s)
  | access act next ih =>
    intro t ht
    obtain ⟨hallowed, hnext⟩ := h t ht
    exact ⟨hallowed, fun ans u hu => ih ans (hnext ans u hu)⟩

/-! ## Processes that may fail -/

section EnsuresFrom

variable {fail : σ → Prop} {s : σ}

variable (answers rely allowed fail) in
/-- What holds of the result and the state after it, from a state on; after an error the
state satisfies `fail`. -/
def EnsuresFrom (x : ExceptT ε (Process Act Ans) α) (post : α → σ → Prop) (s : σ) : Prop :=
  x.run.wp answers rely allowed
    (fun r t => match r with
      | .ok a => post a t
      | .error _ => fail t) s

variable {post : α → σ → Prop} {x : ExceptT ε (Process Act Ans) α}

theorem EnsuresFrom.mono {post' : α → σ → Prop} (h : EnsuresFrom answers rely allowed fail x post s)
    (hpost : ∀ a t, post a t → post' a t) : EnsuresFrom answers rely allowed fail x post' s := by
  refine wp_mono h (fun _ _ => id) ?_
  rintro (err | a) t hr
  · exact hr
  · exact hpost a t hr

theorem EnsuresFrom.pure {a : α} (h : ∀ t, rely s t → post a t) :
    EnsuresFrom answers rely allowed fail (Pure.pure a : ExceptT ε (Process Act Ans) α) post s :=
  h

theorem EnsuresFrom.throw {err : ε} (h : ∀ t, rely s t → fail t) :
    EnsuresFrom answers rely allowed fail
      (MonadExcept.throw err : ExceptT ε (Process Act Ans) α) post s :=
  h

theorem EnsuresFrom.lift (hrefl : ∀ s, rely s s) {p : Process Act Ans α}
    (h : p.wp answers rely allowed (fun a t => ∀ u, rely t u → post a u) s) :
    EnsuresFrom answers rely allowed fail (ExceptT.lift p : ExceptT ε (Process Act Ans) α) post s :=
  wp_bind hrefl h

theorem EnsuresFrom.bind (hrefl : ∀ s, rely s s) (hfail : ∀ s t, fail s → rely s t → fail t)
    {f : α → ExceptT ε (Process Act Ans) β} {post' : β → σ → Prop}
    (h : EnsuresFrom answers rely allowed fail x post s)
    (hf : ∀ a t, post a t → EnsuresFrom answers rely allowed fail (f a) post' t) :
    EnsuresFrom answers rely allowed fail (x >>= f) post' s := by
  refine wp_bind hrefl (wp_mono h (fun _ _ => id) ?_)
  rintro (err | a) t hr
  · exact fun u hu => hfail t u hr hu
  · exact hf a t hr

/-- A loop: `Inv` speaks of the elements done, the value and the state. -/
theorem EnsuresFrom.foldlM (hrefl : ∀ s, rely s s) (hfail : ∀ s t, fail s → rely s t → fail t)
    {f : β → γ → ExceptT ε (Process Act Ans) β} (Inv : List γ → β → σ → Prop)
    (hrely : ∀ finished b s t, Inv finished b s → rely s t → Inv finished b t)
    {l : List γ} {b : β} (hstart : Inv [] b s)
    (hstep : ∀ finished c rest b s, l = finished ++ c :: rest → Inv finished b s →
      EnsuresFrom answers rely allowed fail (f b c) (Inv (finished ++ [c])) s) :
    EnsuresFrom answers rely allowed fail (l.foldlM f b) (Inv l) s :=
  Result.foldlM_induction (EnsuresFrom answers rely allowed fail)
    (fun _ _ _ _ _ => .bind hrefl hfail) Inv (fun b s h => .pure (hrely l b s · h)) hstart hstep

end EnsuresFrom

/-! ## Runs -/

/-- The process goes from one state to another by its own accesses, with the others
interfering. -/
inductive Runs (answers : (act : Act) → σ → Ans act → σ → Prop) (rely : σ → σ → Prop)
    (p : Process Act Ans α) (s : σ) : Process Act Ans α → σ → Prop
  | start : Runs answers rely p s p s
  | other {q : Process Act Ans α} {t u : σ} :
      Runs answers rely p s q t → rely t u → Runs answers rely p s q u
  | access {act : Act} {next : Ans act → Process Act Ans α} {t u : σ} {ans : Ans act} :
      Runs answers rely p s (.access act next) t → answers act t ans u →
        Runs answers rely p s (next ans) u

theorem Runs.mono {answers' : (act : Act) → σ → Ans act → σ → Prop} {t : σ}
    (h : Runs answers rely p s q t)
    (hans : ∀ act s ans t, answers act s ans t → answers' act s ans t) :
    Runs answers' rely p s q t := by
  induction h with
  | start => exact .start
  | other _ hrely ih => exact .other ih hrely
  | access _ ha ih => exact .access ih (hans _ _ _ _ ha)

theorem Runs.head {act : Act} {next : Ans act → Process Act Ans α} {t u : σ} {ans : Ans act}
    (hans : answers act s ans t) (h : Runs answers rely (next ans) t q u) :
    Runs answers rely (Process.access act next) s q u := by
  induction h with
  | start => exact .access .start hans
  | other _ hrely ih => exact .other ih hrely
  | access _ ha ih => exact .access ih ha

end Logic

/-! ## Whatever the store, as long as its answers keep to a predicate -/

section Holds

variable (can : (act : Act) → Ans act → Prop) (allowed : Act → Prop)

/-- If every answer is one that can be given, every access is allowed and the result
satisfies `post`. -/
def Holds : Process Act Ans α → (α → Prop) → Prop
  | done a, post => post a
  | access act next, post => allowed act ∧ ∀ ans, can act ans → (next ans).Holds post

variable {can allowed} {p : Process Act Ans α} {post post' : α → Prop}

theorem Holds.mono (h : p.Holds can allowed post) (hpost : ∀ a, post a → post' a) :
    p.Holds can allowed post' := by
  induction p with
  | done a => exact hpost a h
  | access act next ih => exact ⟨h.1, fun ans hans => ih ans (h.2 ans hans)⟩

theorem Holds.imp {allowed' : Act → Prop} (h : p.Holds can allowed post)
    (hallowed : ∀ act, allowed act → allowed' act) : p.Holds can allowed' post := by
  induction p with
  | done a => exact h
  | access act next ih => exact ⟨hallowed act h.1, fun ans hans => ih ans (h.2 ans hans)⟩

theorem Holds.bind {f : α → Process Act Ans β} {post' : β → Prop} (h : p.Holds can allowed post)
    (hf : ∀ a, post a → (f a).Holds can allowed post') : (p >>= f).Holds can allowed post' := by
  induction p with
  | done a => exact hf a h
  | access act next ih => exact ⟨h.1, fun ans hans => ih ans (h.2 ans hans)⟩

/-- What holds whatever the store holds from any state, while the store keeps an invariant
under which its answers keep to the predicate. -/
theorem Holds.wp {answers : (act : Act) → σ → Ans act → σ → Prop} {rely : σ → σ → Prop}
    {allowed' : Act → σ → Prop} {I : σ → Prop} {s : σ} (h : p.Holds can allowed post) (hstart : I s)
    (hrely : ∀ s t, I s → rely s t → I t)
    (hanswers : ∀ act s ans t, I s → allowed act → answers act s ans t → can act ans ∧ I t)
    (hallowed : ∀ act s, I s → allowed act → allowed' act s) :
    p.wp answers rely allowed' (fun a t => post a ∧ I t) s := by
  induction p generalizing s with
  | done a => exact fun t ht => ⟨h, hrely s t hstart ht⟩
  | access act next ih =>
    intro t ht
    have hI := hrely s t hstart ht
    refine ⟨hallowed act t hI h.1, fun ans u hu => ?_⟩
    obtain ⟨hcan, hI'⟩ := hanswers act t ans u hI h.1 hu
    exact ih ans (h.2 ans hcan) hI'

/-! ### Processes that may fail -/

variable (can allowed) in
/-- What holds of the result, if there is one. -/
def Ensures (x : ExceptT ε (Process Act Ans) α) (post : α → Prop) : Prop :=
  x.run.Holds can allowed fun r => ∀ a, r = .ok a → post a

theorem Ensures.pure {a : α} (h : post a) :
    Ensures can allowed (Pure.pure a : ExceptT ε (Process Act Ans) α) post := by
  intro b hb
  cases hb
  exact h

theorem Ensures.lift (h : p.Holds can allowed post) :
    Ensures can allowed (ExceptT.lift p : ExceptT ε (Process Act Ans) α) post := by
  refine .bind h fun a ha => ?_
  intro b hb
  cases hb
  exact ha

theorem Ensures.bind {x : ExceptT ε (Process Act Ans) α} {f : α → ExceptT ε (Process Act Ans) β}
    {post' : β → Prop} (h : Ensures can allowed x post)
    (hf : ∀ a, post a → Ensures can allowed (f a) post') : Ensures can allowed (x >>= f) post' := by
  refine Holds.bind h ?_
  rintro (err | a) hr
  · exact fun b hb => nomatch hb
  · exact hf a (hr a rfl)

theorem Ensures.foldlM_of_forall {f : β → γ → ExceptT ε (Process Act Ans) β} (Inv : β → Prop)
    {l : List γ} {b : β} (hstart : Inv b)
    (hstep : ∀ c ∈ l, ∀ b, Inv b → Ensures can allowed (f b c) Inv) :
    Ensures can allowed (l.foldlM f b) Inv :=
  Result.foldlM_induction (fun x post s => Ensures can allowed x (post · s))
    (fun _ _ _ _ s h hf => .bind h (hf · s)) (fun _ b _ => Inv b) (fun _ _ => .pure) hstart
    (fun _ c _ b _ hl => hstep c (by rw [hl]; exact List.mem_append_right _ List.mem_cons_self) b)
    (s := ())

end Holds

section Exec

/-- Run a process alone on a store that answers by a function. -/
def exec (handler : (act : Act) → σ → Ans act × σ) : Process Act Ans α → σ → α × σ
  | done a, s => (a, s)
  | access act next, s => (next (handler act s).1).exec handler (handler act s).2

section

variable (handler : (act : Act) → σ → Ans act × σ) (p : Process Act Ans α)

include handler p

theorem exec_runs (s : σ) :
    Runs (fun act s ans t => handler act s = (ans, t)) Eq p s
      (done (p.exec handler s).1) (p.exec handler s).2 := by
  induction p generalizing s with
  | done a => exact .start
  | access act next ih => exact .head rfl (ih _ _)

theorem exec_bind (f : α → Process Act Ans β) (s : σ) :
    (p >>= f).exec handler s = (f (p.exec handler s).1).exec handler (p.exec handler s).2 := by
  induction p generalizing s with
  | done a => rfl
  | access act next ih => exact ih _ _

end

/-- A process that may fail runs to a result, which satisfies `post`. -/
def Succeeds {ε : Type} (handler : (act : Act) → σ → Ans act × σ)
    (x : ExceptT ε (Process Act Ans) α) (post : α → σ → Prop) (s : σ) : Prop :=
  ∃ a t, x.run.exec handler s = (.ok a, t) ∧ post a t

section Succeeds

variable {handler : (act : Act) → σ → Ans act × σ} {s : σ}
  {answers : (act : Act) → σ → Ans act → σ → Prop} {rely : σ → σ → Prop} {allowed : Act → σ → Prop}
  (hrefl : ∀ s, rely s s) (hhandler : ∀ act s, answers act s (handler act s).1 (handler act s).2)

include hrefl hhandler

theorem wp_exec {p : Process Act Ans α} {post : α → σ → Prop}
    (h : p.wp answers rely allowed post s) : post (p.exec handler s).1 (p.exec handler s).2 := by
  induction p generalizing s with
  | done a => exact h s (hrefl s)
  | access act next ih => exact ih _ ((h s (hrefl s)).2 _ _ (hhandler act s))

/-- Where no error is possible, a process run alone gives a result. -/
theorem EnsuresFrom.succeeds {x : ExceptT ε (Process Act Ans) α} {post : α → σ → Prop}
    (h : EnsuresFrom answers rely allowed (fun _ => False) x post s) : Succeeds handler x post s := by
  have hexec := wp_exec hrefl hhandler h
  cases hresult : (x.run.exec handler s).1 with
  | error err =>
    rw [hresult] at hexec
    exact hexec.elim
  | ok a =>
    rw [hresult] at hexec
    exact ⟨a, _, Prod.ext hresult rfl, hexec⟩

end Succeeds

end Exec

end Process
