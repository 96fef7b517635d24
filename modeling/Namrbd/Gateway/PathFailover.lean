import Mathlib.Logic.Function.Basic
import Namrbd.Lib.Trace
import Namrbd.Metadata.Types

/-!
# A request retried on another path

The block driver (`kernel/module/namrbd_blk.c`) sends a write, zero or discard again to another
gateway when the connection is lost or the answer is an error. The first gateway goes on with what
it received (`handleRequest` has no context of the connection), under an idempotency key of its own
(`newRequestContext`), so the storage does not know two executions of one request as one.

A request is older than another if it had ended before the other was handed to the driver.
-/

namespace Namrbd.PathFailover

open Function

variable {ι γ : Type} [DecidableEq ι]

/-- A write, or a zero or discard, which stores zeros. -/
structure BlockRequest where
  offsetBytes : Nat
  data : List Byte

def BlockRequest.byte? (rq : BlockRequest) (i : Nat) : Option Byte :=
  if rq.offsetBytes ≤ i then rq.data[i - rq.offsetBytes]? else none

structure PendingReq (γ : Type) where
  requestID : Nat
  path : γ
  triedMask : List γ
  deriving DecidableEq

/-- The driver has at most one pending record for a request; a retry replaces it. -/
inductive RequestPhase (γ : Type) where
  | idle
  | requeued
  | pending (p : PendingReq γ)
  | ended (ok : Bool)
  deriving DecidableEq

structure WireRequest (ι γ : Type) where
  path : γ
  requestID : Nat
  rq : ι
  deriving DecidableEq

/-- `executing` and `answered` are the wire requests that the gateways have received and that
have taken effect, `keys` are the idempotency records of the storage. For each byte `owner` is
the request that wrote it. `before` are the requests that had ended when one was handed over. -/
structure State (ι γ : Type) where
  requestSeq : Nat := 0
  phase : ι → RequestPhase γ := fun _ => .idle
  executing : List (WireRequest ι γ) := []
  answered : List (WireRequest ι γ) := []
  nextReq : γ → Nat := fun _ => 0
  keys : List (γ × Nat) := []
  owner : Nat → Option ι := fun _ => none
  ended : List ι := []
  before : ι → List ι := fun _ => []

/-- `namrbd_data_path_submit_async` -/
def State.submitAsync (s : State ι γ) (rq : ι) (path : γ) (triedMask : List γ) : State ι γ :=
  { s with
    requestSeq := s.requestSeq + 1
    phase := update s.phase rq (.pending { requestID := s.requestSeq + 1, path, triedMask })
    executing := { path, requestID := s.requestSeq + 1, rq } :: s.executing }

def State.endRequest (s : State ι γ) (rq : ι) (ok : Bool) : State ι γ :=
  { s with phase := update s.phase rq (.ended ok), ended := rq :: s.ended }

/-- The gateway makes a request context, and the storage executes what has a new key. -/
def State.handleRequest [DecidableEq γ] (request : ι → BlockRequest) (s : State ι γ)
    (w : WireRequest ι γ) : State ι γ :=
  let reqID := s.nextReq w.path + 1
  { s with
    executing := s.executing.erase w
    answered := w :: s.answered
    nextReq := update s.nextReq w.path reqID
    keys := (w.path, reqID) :: s.keys
    owner := fun i =>
      if (w.path, reqID) ∉ s.keys ∧ ((request w.rq).byte? i).isSome then some w.rq
      else s.owner i }

/-- `fail` is a lost connection or an error answer: the request is retried on the path `next`, or
it is requeued or ended with an error. -/
inductive Event (ι γ : Type) where
  | queueRq (rq : ι) (path : γ)
  | fail (rq : ι) (next : Option γ) (requeue : Bool)
  | execute (w : WireRequest ι γ)
  | respond (w : WireRequest ι γ)

/-- One event of the device. -/
def step [DecidableEq γ] (request : ι → BlockRequest) (s : State ι γ) :
    Event ι γ → Option (State ι γ)
  | .queueRq rq path =>
    match s.phase rq with
    | .idle =>
      some (State.submitAsync { s with before := update s.before rq s.ended } rq path [])
    | .requeued => some (s.submitAsync rq path [])
    | _ => none
  | .fail rq next requeue =>
    match s.phase rq, next with
    | .pending p, some path =>
      if path ∈ p.path :: p.triedMask then none
      else some (s.submitAsync rq path (p.path :: p.triedMask))
    | .pending _, none =>
      some (if requeue then { s with phase := update s.phase rq .requeued }
        else s.endRequest rq false)
    | _, _ => none
  | .execute w => if w ∈ s.executing then some (s.handleRequest request w) else none
  | .respond w =>
    match s.phase w.rq with
    | .pending p =>
      -- ids are given out once, so the pending record with the id of the answer is this one
      if w ∈ s.answered ∧ p.requestID = w.requestID ∧ p.path = w.path then
        some (s.endRequest w.rq true)
      else none
    | _ => none

/-- An execution takes effect only while its request has not ended. -/
def InTime (s : State ι γ) : Event ι γ → Prop
  | .execute w => w.rq ∉ s.ended
  | _ => True

instance (s : State ι γ) : DecidablePred (InTime s)
  | .execute w => inferInstanceAs (Decidable (w.rq ∉ s.ended))
  | .queueRq .. | .fail .. | .respond _ => isTrue trivial

/-! ## What a completed request wrote -/

variable {request : ι → BlockRequest} {s s' : State ι γ} {rq : ι}

variable (request s) in
/-- No byte of the request is an older one's. -/
def Shown (rq : ι) : Prop :=
  ∀ i, ((request rq).byte? i).isSome → ∃ o, s.owner i = some o ∧ o ∉ s.before rq

variable (request s) in
/-- The invariant of the device and its gateways. -/
structure Inv : Prop where
  keys_le : ∀ key ∈ s.keys, key.2 ≤ s.nextReq key.1
  before_ended : ∀ rq, s.before rq ⊆ s.ended
  sent : ∀ w, w ∈ s.executing ∨ w ∈ s.answered → s.phase w.rq ≠ .idle
  answered : ∀ w ∈ s.answered, Shown request s w.rq
  completed : ∀ rq, s.phase rq = .ended true → Shown request s rq

theorem Inv.move (h : Inv request s) {p : RequestPhase γ} (hidle : p ≠ .idle)
    (hshown : p = .ended true → Shown request s rq) {requestSeq : Nat}
    {executing : List (WireRequest ι γ)} (hexec : ∀ w ∈ executing, w.rq = rq ∨ w ∈ s.executing)
    {ended : List ι} (hended : s.ended ⊆ ended) :
    Inv request { s with requestSeq, phase := update s.phase rq p, executing, ended } := by
  refine ⟨h.keys_le, fun rq => List.Subset.trans (h.before_ended rq) hended, fun w hw => ?_,
    h.answered, fun rq' hrq' => ?_⟩
  · dsimp only at hw ⊢
    rw [update_apply]
    split
    · exact hidle
    next hne => exact h.sent w (hw.imp_left fun hw => (hexec w hw).resolve_left hne)
  · dsimp only at hrq'
    rw [update_apply] at hrq'
    split at hrq'
    · next heq =>
      subst heq
      exact hshown hrq'
    · exact h.completed rq' hrq'

theorem Inv.first (h : Inv request s) (hidle : s.phase rq = .idle) :
    Inv request { s with before := update s.before rq s.ended } := by
  have hkept : ∀ rq', s.phase rq' ≠ .idle → Shown request s rq' →
      Shown request { s with before := update s.before rq s.ended } rq' := by
    intro rq' hrq' hshown i hi
    dsimp only
    rw [update_of_ne (by rintro rfl; exact hrq' hidle)]
    exact hshown i hi
  refine ⟨h.keys_le, fun rq' => ?_, h.sent,
    fun w hw => hkept _ (h.sent w (.inr hw)) (h.answered w hw), fun rq' hrq' => ?_⟩
  · dsimp only
    rw [update_apply]
    split
    · exact List.Subset.refl _
    · exact h.before_ended rq'
  · exact hkept rq' (by rw [hrq']; exact nofun) (h.completed rq' hrq')

theorem Inv.handleRequest [DecidableEq γ] (h : Inv request s) {w : WireRequest ι γ}
    (hw : w ∈ s.executing) (hintime : w.rq ∉ s.ended) : Inv request (s.handleRequest request w) := by
  -- the key is new, so the execution takes effect
  have hkey : (w.path, s.nextReq w.path + 1) ∉ s.keys := fun hmem =>
    absurd (h.keys_le _ hmem) (Nat.not_succ_le_self _)
  have hshown : ∀ rq, rq = w.rq ∨ Shown request s rq →
      Shown request (s.handleRequest request w) rq := by
    intro rq hrq i hi
    dsimp only [State.handleRequest]
    by_cases hbyte : ((request w.rq).byte? i).isSome
    · exact ⟨w.rq, if_pos ⟨hkey, hbyte⟩, fun hmem => hintime (h.before_ended rq hmem)⟩
    · rw [if_neg fun hcond => hbyte hcond.2]
      rcases hrq with rfl | hrq
      · exact absurd hi hbyte
      · exact hrq i hi
  refine ⟨fun key hmem => ?_, h.before_ended, fun w' hw' => ?_, ?_,
    fun rq hrq => hshown rq (.inr (h.completed rq hrq))⟩
  · dsimp only [State.handleRequest] at hmem ⊢
    rw [update_apply]
    rcases List.mem_cons.mp hmem with rfl | hmem
    · exact (if_pos rfl).ge
    have hle := h.keys_le key hmem
    split
    · next heq => exact (heq ▸ hle).trans (Nat.le_succ _)
    · exact hle
  · rcases hw' with hw' | hw'
    · exact h.sent w' (.inl (List.mem_of_mem_erase hw'))
    · rcases List.mem_cons.mp hw' with rfl | hw'
      · exact h.sent w' (.inl hw)
      · exact h.sent w' (.inr hw')
  · exact List.forall_mem_cons.mpr
      ⟨hshown _ (.inl rfl), fun w' hw' => hshown _ (.inr (h.answered w' hw'))⟩

theorem Inv.submitAsync (h : Inv request s) (path : γ) (triedMask : List γ) :
    Inv request (s.submitAsync rq path triedMask) := by
  refine h.move (p := .pending _) nofun nofun (fun w hw => ?_) (List.Subset.refl _)
  exact (List.mem_cons.mp hw).imp_left (congrArg WireRequest.rq)

theorem Inv.endRequest (h : Inv request s) {ok : Bool} (hshown : ok = true → Shown request s rq) :
    Inv request (s.endRequest rq ok) :=
  h.move (p := .ended ok) nofun (fun heq => hshown (RequestPhase.ended.inj heq)) (fun _ => .inr)
    (List.subset_cons_self _ _)

/-- An event in time keeps the invariant. -/
theorem Inv.step [DecidableEq γ] {e : Event ι γ} (h : Inv request s) (hintime : InTime s e)
    (hstep : step request s e = some s') : Inv request s' := by
  cases e with
  | queueRq rq path =>
    dsimp only [PathFailover.step] at hstep
    split at hstep
    · next hidle =>
      cases hstep
      exact (h.first hidle).submitAsync path []
    · cases hstep
      exact h.submitAsync path []
    · cases hstep
  | fail rq next requeue =>
    dsimp only [PathFailover.step] at hstep
    split at hstep
    · split at hstep
      · cases hstep
      · cases hstep
        exact h.submitAsync _ _
    · cases hstep
      split
      · exact h.move (p := .requeued) nofun nofun (fun _ => .inr) (List.Subset.refl _)
      · exact h.endRequest nofun
    · cases hstep
  | execute w =>
    obtain ⟨hw, hstep⟩ := Option.ite_none_right_eq_some.mp hstep
    cases hstep
    exact h.handleRequest hw hintime
  | respond w =>
    dsimp only [PathFailover.step] at hstep
    split at hstep
    · obtain ⟨⟨hw, -, -⟩, hstep⟩ := Option.ite_none_right_eq_some.mp hstep
      cases hstep
      exact h.endRequest fun _ => h.answered w hw
    · cases hstep

/-- In a run whose executions are all in time, no byte that a completed request wrote is an older
request's. -/
theorem completed_not_overwritten [DecidableEq γ] {events : List (Event ι γ)}
    (hintime : Trace.Guarded (step request) InTime {} events)
    (hrun : Trace.run (step request) {} events = some s) (hdone : s.phase rq = .ended true)
    {i : Nat} (hbyte : ((request rq).byte? i).isSome) :
    ∃ o, s.owner i = some o ∧ o ∉ s.before rq := by
  have hstart : Inv request ({} : State ι γ) := ⟨nofun, fun _ _ => nofun, by simp, nofun, nofun⟩
  have hinv : Inv request s := Trace.run_induction (Inv request)
    (fun _ _ _ h hintime hstep => h.step hintime hstep) hstart hintime hrun
  exact hinv.completed rq hdone i hbyte

/-- Two writes of one byte, and two paths. The first write is retried on the second path. -/
def overwrite (rq : Bool) : BlockRequest :=
  { offsetBytes := 0, data := [if rq then 2 else 1] }

def retried : List (Event Bool Bool) :=
  [.queueRq false false, .fail false (some true) false, .execute ⟨true, 2, false⟩,
    .respond ⟨true, 2, false⟩, .queueRq true true, .execute ⟨true, 3, true⟩,
    .respond ⟨true, 3, true⟩]

/-- The first write is retried through the other gateway, and the second one stays. -/
theorem retried_not_overwritten : ∃ s, Trace.run (step overwrite) {} retried = some s ∧
    ∃ o, s.owner 0 = some o ∧ o ∉ s.before true :=
  have hintime : Trace.Guarded (step overwrite) InTime {} retried := by decide
  ⟨_, rfl, completed_not_overwritten hintime rfl rfl rfl⟩

/-- The gateway of the first path executes the first write after the second has completed. -/
theorem late_execution_overwrites :
    ∃ s, Trace.run (step overwrite) {} (retried ++ [.execute ⟨false, 1, false⟩]) = some s ∧
      s.phase true = .ended true ∧ s.owner 0 = some false ∧ false ∈ s.before true :=
  ⟨_, rfl, rfl, rfl, by decide⟩

end Namrbd.PathFailover
