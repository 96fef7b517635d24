import Namrbd.Lib.Process
import Namrbd.Lib.Trace
import Mathlib.Logic.Function.Basic

/-!
# Processes that share a store

A pool runs any number of processes on one store, one access at a time and in any order,
and keeps for each a record of its answers. What a process does is proved from that
record alone (`Acts`), what an access does to the store from the store and the record of
the one that makes it. `run_step` puts the two together along every run.
-/

/-- Processes on one store. `seen` is what each of them has recorded of its answers. -/
structure Pool (ι σ γ Act : Type) (Ans : Act → Type) (α : Type) where
  store : σ
  process : ι → Process Act Ans α
  seen : ι → γ

namespace Pool

open Function

variable {ι σ γ Act α : Type} {Ans : Act → Type} [DecidableEq ι]
  (handler : (act : Act) → σ → Ans act × σ) (observe : (act : Act) → Ans act → γ → γ)

def step (p : Pool ι σ γ Act Ans α) (i : ι) : Option (Pool ι σ γ Act Ans α) :=
  match p.process i with
  | .done _ => none
  | .access act next =>
    let (ans, store) := handler act p.store
    some
      { store
        process := Function.update p.process i (next ans)
        seen := Function.update p.seen i (observe act ans (p.seen i)) }

def next? (p : Pool ι σ γ Act Ans α) (i : ι) : Option Act :=
  match p.process i with
  | .done _ => none
  | .access act _ => some act

/-- Whatever it is answered, a process makes only accesses that its record allows. -/
def Acts (allowed : Act → γ → Prop) (p : Process Act Ans α) (seen : γ) : Prop :=
  p.wp (fun act seen ans seen' => seen' = observe act ans seen) Eq allowed (fun _ _ => True) seen

def AllAct (allowed : ι → Act → γ → Prop) (p : Pool ι σ γ Act Ans α) : Prop :=
  ∀ i, Acts observe (allowed i) (p.process i) (p.seen i)

/-- The condition on the next access of a process: `permits` sees the access, the record of
the process and the store. -/
def Permitted (permits : Act → γ → σ → Prop) (p : Pool ι σ γ Act Ans α) (i : ι) : Prop :=
  ∀ act ∈ p.next? i, permits act (p.seen i) p.store

variable {handler observe} {allowed : ι → Act → γ → Prop} {p p' : Pool ι σ γ Act Ans α} {i : ι}

theorem step_cases (h : p.step handler observe i = some p') :
    ∃ act next, p.process i = .access act next ∧ p.next? i = some act ∧
      p'.store = (handler act p.store).2 ∧
      p'.process = update p.process i (next (handler act p.store).1) ∧
      p'.seen = update p.seen i (observe act (handler act p.store).1 (p.seen i)) := by
  unfold step at h
  cases hp : p.process i with
  | done a =>
    rw [hp] at h
    cases h
  | access act next =>
    rw [hp] at h
    cases h
    exact ⟨act, next, rfl, by rw [next?, hp], rfl, rfl, rfl⟩

theorem step_acts (hacts : AllAct observe allowed p) (h : p.step handler observe i = some p') :
    AllAct observe allowed p' ∧
      ∃ act, p.next? i = some act ∧ allowed i act (p.seen i) ∧
        p'.store = (handler act p.store).2 := by
  obtain ⟨act, next, hproc, hnext, hstore, hprocs, hseen⟩ := step_cases h
  have hi := hacts i
  rw [hproc] at hi
  obtain ⟨hallowed, hrest⟩ := hi _ rfl
  refine ⟨fun j => ?_, act, hnext, hallowed, hstore⟩
  rw [hprocs, hseen]
  by_cases hj : j = i
  · subst hj
    rw [update_self, update_self]
    exact hrest _ _ rfl
  · rw [update_of_ne hj, update_of_ne hj]
    exact hacts j

variable {permits : Act → γ → σ → Prop}

section

variable (I : σ → Prop)
  (hkeep : ∀ i act seen s, I s → allowed i act seen → permits act seen s → I (handler act s).2)
  (hI : I p.store) (hacts : AllAct observe allowed p)

include I hkeep hI hacts

/-- What every allowed and permitted access keeps of the store holds in every state of a run
whose accesses are all permitted; its last step makes one more such access. -/
theorem run_step {is : List ι} {p'' : Pool ι σ γ Act Ans α}
    (hguarded : Trace.Guarded (step handler observe) (Permitted permits) p (is ++ [i]))
    (hrun : Trace.run (step handler observe) p is = some p')
    (hstep : p'.step handler observe i = some p'') :
    I p'.store ∧ ∃ act, allowed i act (p'.seen i) ∧ permits act (p'.seen i) p'.store ∧
      p''.store = (handler act p'.store).2 := by
  obtain ⟨hguarded, hlast⟩ := Trace.guarded_append.mp hguarded
  obtain ⟨hI', hacts'⟩ : I p'.store ∧ AllAct observe allowed p' := by
    refine Trace.run_induction (fun p => I p.store ∧ AllAct observe allowed p) ?_ ⟨hI, hacts⟩
      hguarded hrun
    rintro p i p' ⟨hI, hacts⟩ hpermitted hstep
    obtain ⟨hacts', act, hnext, hallowed, hstore⟩ := step_acts hacts hstep
    exact ⟨hstore ▸ hkeep i act _ _ hI hallowed (hpermitted act hnext), hacts'⟩
  obtain ⟨-, act, hnext, hallowed, hstore⟩ := step_acts hacts' hstep
  exact ⟨hI', act, hallowed, (hlast p' hrun).1 act hnext, hstore⟩

end

instance [∀ act seen s, Decidable (permits act seen s)] (p : Pool ι σ γ Act Ans α) (i : ι) :
    Decidable (Permitted permits p i) :=
  inferInstanceAs (Decidable (∀ act ∈ p.next? i, permits act (p.seen i) p.store))

end Pool
