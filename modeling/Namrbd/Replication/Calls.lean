import Namrbd.Replication.WriteService

/-!
# Write calls taken apart

A call of the write service is a sequence of actions: begin, payload, preparing
the commit, the commit, and after a lost race the rebase; a call that fails marks
its execution as failed. `callStep` takes one of them, so that the actions of
several calls can follow each other in any order.
-/

namespace Namrbd

/-- Where a call of `Write` is between its actions. -/
inductive Phase where
  | idle
  | begun (exec : WriteExecution)
  | paid (exec : WriteExecution)
  | prepared (exec : WriteExecution) (alloc : AllocationCommit)
  | conflicted (exec : WriteExecution)
  | done
  /-- The call has failed and its execution is not marked yet. -/
  | failing (exec : WriteExecution) (err : Err)
  | failed

/-- The actions of a call. A commit reads the clock, and the replica stores may fail. -/
inductive Action where
  | begin
  | payload (faults : StoreFaults)
  | prepare
  | commit (now : Nat)
  | rebase
  | giveUp
  | markFailed

def Cluster.afterCommit (c : Cluster) (outcome : CommitOutcome) : Cluster :=
  { c with repository := outcome.repository, deferred := c.deferred ++ outcome.deferred }

/-- One action of a call; `none` where the call is not ready for it. -/
def callStep (cfg : ExecutorConfig) (req : WriteRequest) (c : Cluster) :
    Action → Phase → Option (Cluster × Phase)
  | .begin, .idle =>
    match beginWrite cfg c.repository req with
    | .error _ => some (c, .failed)
    | .ok (.replay _, m) => some ({ c with repository := m }, .done)
    | .ok (.noop _, m) => some ({ c with repository := m }, .done)
    | .ok (.execution exec, m) => some ({ c with repository := m }, .begun exec)
  | .payload faults, .begun exec =>
    match writePayload faults exec req c.stores with
    | (.error err, stores) => some ({ c with stores }, .failing exec err)
    | (.ok exec, stores) => some ({ c with stores }, .paid exec)
  | .prepare, .paid exec =>
    match prepareAllocationCommit exec req with
    | .error err => some (c, .failing exec err)
    | .ok alloc => some (c, .prepared exec alloc)
  | .commit now, .prepared exec alloc =>
    match commitMetadata cfg now c.repository exec alloc with
    | (.ok _, outcome) => some (c.afterCommit outcome, .done)
    | (.error .casConflict, outcome) => some (c.afterCommit outcome, .conflicted exec)
    | (.error err, outcome) => some (c.afterCommit outcome, .failing exec err)
  | .rebase, .conflicted exec =>
    match rebaseWritePlanForRetry c.repository exec req with
    | .error err => some (c, .failing exec err)
    | .ok exec => some (c, .paid exec)
  | .giveUp, .conflicted exec => some (c, .failing exec .casConflict)
  | .markFailed, .failing exec err =>
    some ({ c with repository := markFailed c.repository exec err.message }, .failed)
  | _, _ => none

def BeginWriteResult.phase : BeginWriteResult → Phase
  | .replay _ => .done
  | .noop _ => .done
  | .execution exec => .begun exec

/-- What an action of a call can do. -/
inductive CallStep (cfg : ExecutorConfig) (req : WriteRequest) (c : Cluster) :
    Action → Phase → Cluster → Phase → Prop
  | refused : CallStep cfg req c .begin .idle c .failed
  | begun {result m} (h : beginWrite cfg c.repository req = .ok (result, m)) :
      CallStep cfg req c .begin .idle { c with repository := m } result.phase
  | unpaid {faults exec err stores} :
      CallStep cfg req c (.payload faults) (.begun exec) { c with stores } (.failing exec err)
  | paid {faults exec exec' stores}
      (h : writePayload faults exec req c.stores = (.ok exec', stores)) :
      CallStep cfg req c (.payload faults) (.begun exec) { c with stores } (.paid exec')
  | unprepared {exec err} : CallStep cfg req c .prepare (.paid exec) c (.failing exec err)
  | prepared {exec alloc} (h : prepareAllocationCommit exec req = .ok alloc) :
      CallStep cfg req c .prepare (.paid exec) c (.prepared exec alloc)
  | committed {now exec alloc revision outcome}
      (h : commitMetadata cfg now c.repository exec alloc = (.ok revision, outcome)) :
      CallStep cfg req c (.commit now) (.prepared exec alloc) (c.afterCommit outcome) .done
  | uncommitted {now exec alloc err outcome phase}
      (h : commitMetadata cfg now c.repository exec alloc = (.error err, outcome))
      (hphase : phase = .conflicted exec ∨ phase = .failing exec err) :
      CallStep cfg req c (.commit now) (.prepared exec alloc) (c.afterCommit outcome) phase
  | rebased {exec exec'} (h : rebaseWritePlanForRetry c.repository exec req = .ok exec') :
      CallStep cfg req c .rebase (.conflicted exec) c (.paid exec')
  | lost {a exec err} : CallStep cfg req c a (.conflicted exec) c (.failing exec err)
  | marked {exec err} : CallStep cfg req c .markFailed (.failing exec err)
      { c with repository := markFailed c.repository exec err.message } .failed

theorem callStep_cases {cfg : ExecutorConfig} {req : WriteRequest} {c c' : Cluster} {a : Action}
    {phase phase' : Phase} (h : callStep cfg req c a phase = some (c', phase')) :
    CallStep cfg req c a phase c' phase' := by
  unfold callStep at h
  split at h <;> try split at h
  all_goals cases h
  · exact .refused
  iterate 3 exact .begun ‹_›
  · exact .unpaid
  · exact .paid ‹_›
  · exact .unprepared
  · exact .prepared ‹_›
  · exact .committed ‹_›
  · exact .uncommitted ‹_› (.inl rfl)
  · exact .uncommitted ‹_› (.inr rfl)
  · exact .lost
  · exact .rebased ‹_›
  · exact .lost
  · exact .marked

/-- Any number of calls over one cluster. -/
structure Calls (ι : Type) where
  cluster : Cluster
  phase : ι → Phase

def Calls.step {ι : Type} [DecidableEq ι] (cfg : ExecutorConfig) (req : ι → WriteRequest)
    (s : Calls ι) (i : ι) (a : Action) : Option (Calls ι) :=
  (callStep cfg (req i) s.cluster a (s.phase i)).map fun (cluster, phase) =>
    { cluster, phase := Function.update s.phase i phase }

def Calls.start {ι : Type} (c : Cluster) : Calls ι := { cluster := c, phase := fun _ => .idle }

def Calls.steps {ι : Type} [DecidableEq ι] (cfg : ExecutorConfig) (req : ι → WriteRequest)
    (s : Calls ι) : List (ι × Action) → Option (Calls ι)
  | [] => some s
  | (i, a) :: rest => (s.step cfg req i a).bind fun s => s.steps cfg req rest

end Namrbd
