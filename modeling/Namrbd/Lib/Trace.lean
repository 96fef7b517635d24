/-!
# Runs of a state machine

A machine is a step function that may refuse an event. `run` takes a list of
events one after the other; `Guarded` says that each of them is taken in a state
that allows it. `run_induction` is the rule for invariants: what the start
satisfies and every allowed step keeps holds at the end of every such run.
-/

namespace Trace

universe u v

variable {σ : Type u} {ε : Type v} (step : σ → ε → Option σ)

/-- The state after a list of events, if none of them is refused. -/
def run : σ → List ε → Option σ
  | s, [] => some s
  | s, e :: es => (step s e).bind fun s => run s es

/-- Every event of a run is taken in a state that allows it. -/
def Guarded (allowed : σ → ε → Prop) : σ → List ε → Prop
  | _, [] => True
  | s, e :: es => allowed s e ∧ ∀ s' ∈ step s e, Guarded allowed s' es

variable {step} {s s' : σ} {es : List ε} {allowed : σ → ε → Prop}

theorem run_cons {e : ε} :
    run step s (e :: es) = some s' ↔ ∃ s1, step s e = some s1 ∧ run step s1 es = some s' :=
  Option.bind_eq_some_iff

theorem run_append {es' : List ε} :
    run step s (es ++ es') = (run step s es).bind fun s => run step s es' := by
  induction es generalizing s with
  | nil => rfl
  | cons e es ih => simp only [List.cons_append, run, ih, Option.bind_assoc]

theorem run_induction (inv : σ → Prop)
    (hstep : ∀ s e s', inv s → allowed s e → step s e = some s' → inv s') (h : inv s)
    (hguarded : Guarded step allowed s es) (hrun : run step s es = some s') : inv s' := by
  induction es generalizing s with
  | nil =>
    cases hrun
    exact h
  | cons e es ih =>
    obtain ⟨s1, hs1, hrun⟩ := run_cons.mp hrun
    exact ih (hstep s e s1 h hguarded.1 hs1) (hguarded.2 s1 hs1) hrun

theorem guarded_append {es' : List ε} :
    Guarded step allowed s (es ++ es') ↔
      Guarded step allowed s es ∧ ∀ s', run step s es = some s' → Guarded step allowed s' es' := by
  induction es generalizing s with
  | nil => simp [Guarded, run]
  | cons e es ih =>
    simp only [List.cons_append, Guarded, Option.mem_def, ih, run_cons]
    constructor
    · rintro ⟨hallowed, hrest⟩
      refine ⟨⟨hallowed, fun s1 hs1 => (hrest s1 hs1).1⟩, ?_⟩
      rintro s' ⟨s1, hs1, hrun⟩
      exact (hrest s1 hs1).2 s' hrun
    · rintro ⟨⟨hallowed, hfirst⟩, hrest⟩
      exact ⟨hallowed, fun s1 hs1 => ⟨hfirst s1 hs1, fun s' hrun => hrest s' ⟨s1, hs1, hrun⟩⟩⟩

theorem Guarded.and_of_forall {P : ε → Prop} (h : Guarded step allowed s es) (hes : ∀ e ∈ es, P e) :
    Guarded step (fun s e => allowed s e ∧ P e) s es := by
  induction es generalizing s with
  | nil => exact trivial
  | cons e es ih =>
    refine ⟨⟨h.1, hes e List.mem_cons_self⟩, fun s' hs' => ih (h.2 s' hs') ?_⟩
    exact fun e' he' => hes e' (List.mem_cons_of_mem _ he')

theorem run_invariant (inv : σ → Prop) (hstep : ∀ s e s', inv s → step s e = some s' → inv s')
    (h : inv s) (hrun : run step s es = some s') : inv s' := by
  induction es generalizing s with
  | nil =>
    cases hrun
    exact h
  | cons e es ih =>
    obtain ⟨s1, hs1, hrun⟩ := run_cons.mp hrun
    exact ih (hstep s e s1 h hs1) hrun

instance Guarded.decidable {allowed : σ → ε → Prop} [∀ s e, Decidable (allowed s e)] :
    (s : σ) → (es : List ε) → Decidable (Guarded step allowed s es)
  | _, [] => inferInstanceAs (Decidable True)
  | s, e :: es =>
    have : ∀ s', Decidable (Guarded step allowed s' es) := fun s' => Guarded.decidable s' es
    inferInstanceAs (Decidable (allowed s e ∧ ∀ s' ∈ step s e, Guarded step allowed s' es))

end Trace
