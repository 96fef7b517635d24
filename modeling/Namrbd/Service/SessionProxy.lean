import Mathlib.Data.List.Basic
import Mathlib.Logic.Function.Basic
import Namrbd.Lib.Trace

/-!
# Sessions of the volume service

`clusterVolumeServiceProxy` keeps the client of a session under a key made of the volume, the
gateway, the attachment and its generation. `OpenVolume` stores a new client before it is open,
whatever is stored under the key, and takes the key away when the client could not be opened.
-/

namespace Namrbd.SessionProxy

open Function

structure Call (κ : Type) where
  opens : Bool
  key : κ

inductive Phase where
  | idle
  | stored (client : Nat)
  | openFailed
  | closing (client : Nat)
  | closed
  | done (ok : Bool)

/-- How the call of a client ends. An open that fails late has opened the client. -/
inductive Outcome where
  | ok | fails | failsLate
  deriving DecidableEq

/-- The client that is stored under a key, and the clients that are open for it. The key is
`live` from the return of a successful open to the next close. -/
structure Session where
  client : Option Nat := none
  opened : List Nat := []
  live : Bool := false

/-- `next` names the next new client. -/
structure Proxy (ι κ : Type) where
  sessions : κ → Session := fun _ => {}
  phase : ι → Phase := fun _ => .idle
  next : Nat := 0

variable {ι κ : Type} [DecidableEq ι] [DecidableEq κ]

def existingClient (s : Proxy ι κ) (key : κ) : Option Nat := (s.sessions key).client

variable (call : ι → Call κ)

def move (s : Proxy ι κ) (i : ι) (session : Session) (phase : Phase) : Proxy ι κ where
  sessions := update s.sessions (call i).key session
  phase := update s.phase i phase
  next := s.next + 1

def step (s : Proxy ι κ) (e : ι × Outcome) : Option (Proxy ι κ) :=
  let session := s.sessions (call e.1).key
  let move := move call s e.1
  match (call e.1).opens, s.phase e.1 with
  | true, .idle =>
    if e.2 ≠ .ok then move session (.done false)
    else move { session with client := some s.next } (.stored s.next)
  | true, .stored client =>
    let opened := client :: session.opened
    match e.2 with
    | .ok => move { session with opened, live := true } (.done true)
    | .fails => move session .openFailed
    | .failsLate => move { session with opened } .openFailed
  | true, .openFailed => move { session with client := none } (.done false)
  | false, .idle =>
    move { session with live := false } (session.client.elim (.done false) .closing)
  | false, .closing client =>
    if e.2 ≠ .ok ∨ client ∉ session.opened then move session (.done false)
    else move { session with opened := session.opened.filter (· ≠ client) } .closed
  | false, .closed => move { session with client := none } (.done true)
  | _, _ => none

def Phase.underWay : Phase → Bool
  | .idle | .done _ => false
  | _ => true

/-- The calls of a key come one after the other, an open finds no session, and one that fails
leaves its client closed. -/
def Ordered (s : Proxy ι κ) (e : ι × Outcome) : Prop :=
  let key := (call e.1).key
  e.2 ≠ .failsLate ∧
    (s.phase e.1 = .idle →
      (∀ j, (call j).key = key → (s.phase j).underWay = false) ∧
      ((call e.1).opens = true → existingClient s key = none))

structure Session.Good (session : Session) : Prop where
  opened : ∀ client ∈ session.opened, session.client = some client
  live : session.live = true → ∃ client ∈ session.opened, session.client = some client

/-- What holds of a session while a call on its key is in the phase. -/
def Phase.Fits (session : Session) : Phase → Prop
  | .stored client => session.client = some client ∧ session.opened = [] ∧ session.live = false
  | .openFailed | .closed => session.opened = [] ∧ session.live = false
  | .closing _ => session.live = false
  | _ => True

structure Inv (s : Proxy ι κ) : Prop where
  good : ∀ key, (s.sessions key).Good
  fits : ∀ i, (s.phase i).Fits (s.sessions (call i).key)
  alone : ∀ i j, (call i).key = (call j).key → (s.phase i).underWay = true → i ≠ j →
    (s.phase j).underWay = false

variable {call} {s s' : Proxy ι κ} {i : ι} {session : Session} {phase : Phase}

theorem fits_of_underWay_eq_false (h : phase.underWay = false) : phase.Fits session := by
  cases phase <;> trivial

theorem Session.Good.of_opened_eq_nil (hopened : session.opened = [])
    (hlive : session.live = false) : session.Good := by
  constructor <;> simp [hopened, hlive]

theorem Inv.move (h : Inv call s)
    (hquiet : ∀ j, (call j).key = (call i).key → i ≠ j → (s.phase j).underWay = false)
    (hgood : session.Good) (hfits : phase.Fits session) :
    Inv call (move call s i session phase) := by
  refine ⟨fun k => ?_, fun j => ?_, fun j j' hkey hunder hne => ?_⟩
  · by_cases hk : k = (call i).key
    · subst hk
      simpa [SessionProxy.move] using hgood
    · simpa [SessionProxy.move, hk] using h.good k
  · by_cases hji : j = i
    · subst hji
      simpa [SessionProxy.move] using hfits
    · by_cases hk : (call j).key = (call i).key
      · simpa [SessionProxy.move, hji] using
          fits_of_underWay_eq_false (hquiet j hk (Ne.symm hji))
      · simpa [SessionProxy.move, hji, hk] using h.fits j
  · by_cases hji : j = i
    · subst hji
      simpa [SessionProxy.move, hne.symm] using hquiet j' hkey.symm hne
    · by_cases hji' : j' = i
      · subst hji'
        simp [SessionProxy.move, hji, hquiet j hkey (Ne.symm hji)] at hunder
      · simp only [SessionProxy.move, update_of_ne hji, update_of_ne hji'] at hunder ⊢
        exact h.alone j j' hkey hunder hne

theorem Session.Good.of_client_eq_none (h : session.Good) (hnone : session.client = none) :
    session.opened = [] ∧ session.live = false := by
  have hopened : session.opened = [] := List.eq_nil_iff_forall_not_mem.2 fun client hmem => by
    cases hnone.symm.trans (h.opened client hmem)
  refine ⟨hopened, Bool.eq_false_iff.2 fun hlive => ?_⟩
  obtain ⟨_, hmem, -⟩ := h.live hlive
  simp [hopened] at hmem

/-- A step in its order keeps the invariant. -/
theorem Inv.step {e : ι × Outcome} (h : Inv call s) (hordered : Ordered call s e)
    (hstep : step call s e = some s') : Inv call s' := by
  obtain ⟨i, outcome⟩ := e
  obtain ⟨hlate, hidle⟩ := hordered
  have hgood := h.good (call i).key
  have hfits := h.fits i
  have halone := fun hunder j hkey => h.alone i j (Eq.symm hkey) hunder
  dsimp only at hlate hidle
  unfold SessionProxy.step at hstep
  dsimp only at hstep
  split at hstep
  next hopens hphase =>
    obtain ⟨hquiet, hnone⟩ := hidle hphase
    have hempty := hgood.of_client_eq_none (hnone hopens)
    split at hstep <;> cases hstep
    · exact h.move (fun j hj _ => hquiet j hj) hgood trivial
    · exact h.move (fun j hj _ => hquiet j hj) (.of_opened_eq_nil hempty.1 hempty.2)
        ⟨rfl, hempty⟩
  next client _ hphase =>
    rw [hphase] at hfits halone
    obtain ⟨hclient, hopened, hlive⟩ := hfits
    split at hstep <;> cases hstep
    · exact h.move (halone rfl)
        ⟨by simp [hopened, hclient], by simp [hclient]⟩ trivial
    · exact h.move (halone rfl) hgood ⟨hopened, hlive⟩
    · exact absurd rfl hlate
  next _ hphase =>
    rw [hphase] at hfits halone
    cases hstep
    exact h.move (halone rfl)
      (.of_opened_eq_nil hfits.1 hfits.2) trivial
  next _ hphase =>
    cases hstep
    refine h.move (fun j hj _ => (hidle hphase).1 j hj) ⟨hgood.opened, by simp⟩ ?_
    cases (s.sessions (call i).key).client <;> trivial
  next client _ hphase =>
    rw [hphase] at hfits halone
    split at hstep <;> cases hstep
    · exact h.move (halone rfl) hgood trivial
    · next hcond =>
      have hmem := not_not.1 (not_or.1 hcond).2
      -- the stored client is the only one that can be open
      have hall : ∀ other ∈ (s.sessions (call i).key).opened, other = client := fun other hother =>
        Option.some.inj ((hgood.opened other hother).symm.trans (hgood.opened client hmem))
      have hnil : (s.sessions (call i).key).opened.filter (· ≠ client) = [] := by
        simpa using hall
      exact h.move (halone rfl) (.of_opened_eq_nil hnil hfits) ⟨hnil, hfits⟩
  next _ hphase =>
    rw [hphase] at hfits halone
    cases hstep
    exact h.move (halone rfl)
      (.of_opened_eq_nil hfits.1 hfits.2) trivial
  next => cases hstep

/-- While a session is live its I/O is routed to an open client, and a close that succeeds leaves
no client of the key open. -/
theorem session_until_close {events : List (ι × Outcome)}
    (hordered : Trace.Guarded (step call) (Ordered call) {} events)
    (hrun : Trace.run (step call) {} events = some s) :
    (∀ key, (s.sessions key).live = true →
      ∃ client ∈ (s.sessions key).opened, existingClient s key = some client) ∧
    ∀ i outcome s', step call s (i, outcome) = some s' → (call i).opens = false →
      s'.phase i = .done true → (s'.sessions (call i).key).opened = [] := by
  have hinv : Inv call s := by
    refine Trace.run_induction (Inv call) (fun _ _ _ h => h.step) ?_ hordered hrun
    exact ⟨fun _ => .of_opened_eq_nil rfl rfl, fun _ => trivial, fun _ _ _ h => nomatch h⟩
  refine ⟨fun key => (hinv.good key).live, fun i outcome s' hstep hcloses hdone => ?_⟩
  cases hphase : s.phase i <;> simp only [step, hcloses, hphase] at hstep
  -- only the last step of a close returns success
  case closed =>
    cases hstep
    have hfits := hinv.fits i
    rw [hphase] at hfits
    simpa [move] using hfits.1
  case idle =>
    cases hstep
    cases hclient : (s.sessions (call i).key).client <;> simp [move, hclient] at hdone
  case closing => split at hstep <;> cases hstep <;> simp [move] at hdone
  all_goals cases hstep

def calls (i : Fin 3) : Call Unit := ⟨i ≠ 2, ()⟩

def opened (i : Fin 3) : List (Fin 3 × Outcome) := [(i, .ok), (i, .ok)]

/-- Two keys are opened, and the first is closed again. -/
def keyed (i : Fin 3) : Call Bool := ⟨i ≠ 2, i = 1⟩

/-- The second key is routed to the client that opened it, and nothing is open for the first. -/
theorem opened_then_routed :
    ∃ s s', Trace.run (step keyed) {} (opened 0 ++ opened 1 ++ [(2, .ok), (2, .ok)]) = some s ∧
      step keyed s (2, .ok) = some s' ∧
      (∃ client ∈ (s.sessions true).opened, existingClient s true = some client) ∧
      (s'.sessions false).opened = [] := by
  have hordered : Trace.Guarded (step keyed) (Ordered keyed) {}
      (opened 0 ++ opened 1 ++ [(2, .ok), (2, .ok)]) := by
    simp [opened, Trace.Guarded, Ordered, step, keyed, move, existingClient, Phase.underWay,
      Fin.forall_fin_succ]
  obtain ⟨hlive, hclose⟩ := session_until_close hordered rfl
  exact ⟨_, _, rfl, rfl, hlive true rfl, hclose 2 .ok _ rfl rfl rfl⟩

/-- A second open of the key fails, and I/O finds no client. A second open succeeds, and the
close leaves the first client open. -/
theorem reopened_session_lost :
    (∃ s, Trace.run (step calls) {} (opened 0 ++ [(1, .ok), (1, .fails), (1, .ok)]) = some s ∧
      (s.sessions ()).live = true ∧ existingClient s () = none) ∧
    ∃ s, Trace.run (step calls) {} (opened 0 ++ opened 1 ++ [(2, .ok), (2, .ok), (2, .ok)]) =
      some s ∧ s.phase 2 = .done true ∧ (s.sessions ()).opened = [0] :=
  ⟨⟨_, rfl, rfl, rfl⟩, ⟨_, rfl, rfl, rfl⟩⟩

end Namrbd.SessionProxy
