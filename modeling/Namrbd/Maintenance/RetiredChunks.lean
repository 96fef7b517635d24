import Namrbd.Replication.PayloadGC

/-!
# The pending payload GC operation of a volume

Writes and transitions pass the chunk ids they have retired to
`ensurePendingPayloadGCMutationOperation`, which lists them in the volume's payload
GC operation, and sweeps take their targets from it. Calls and sweeps access the
store one access after the other, in any order, and any access may fail.
-/

namespace Namrbd

/-- An access that may fail, before or after it took effect. -/
def GCStore.answer (s : GCStore) (act : GCAccess) :
    Option (String × Bool) → Except Err act.Value × GCStore
  | none => s.handle act
  | some (message, effective) =>
    (.error (.other message), if effective then (s.handle act).2 else s)

structure RetireRequest where
  affectedExtentIDs : List Nat
  affectedPageNos : List Nat
  retiredPhysicalChunkIDs : List Nat
  deriving DecidableEq

/-- `spelling` is how the sweeps spell the volume. -/
structure RetireUse (ε : Type) where
  volumeID : String
  spelling : String
  retire : ε → RetireRequest
  chunkBatchSize : Nat
  replicaIDs : List String

/-- The store, the calls and sweeps under way, and the ids of the calls that have succeeded. -/
structure RetiredChunks (ε κ : Type) where
  store : GCStore
  retire : ε → Option (GCProcess (Except Err Unit))
  sweep : κ → Option (GCProcess (Except Err (List LocalPayloadSweepResult)))
  accepted : List Nat

/-- What happens to the retired chunks. -/
inductive RetireEvent (ε κ : Type) where
  | startRetire (e : ε)
  | retire (e : ε) (fault : Option (String × Bool))
  | endRetire (e : ε)
  | startSweep (k : κ)
  | sweep (k : κ) (fault : Option (String × Bool))
  | endSweep (k : κ)

def RetiredChunks.start {ε κ : Type} (store : GCStore) : RetiredChunks ε κ where
  store := store
  retire _ := none
  sweep _ := none
  accepted := []

/-- One access, or the begin or the end of a call or a sweep; `none` where it can not
happen. -/
def RetiredChunks.step {ε κ : Type} [DecidableEq ε] [DecidableEq κ] (use : RetireUse ε)
    (s : RetiredChunks ε κ) : RetireEvent ε κ → Option (RetiredChunks ε κ)
  | .startRetire e =>
    match s.retire e with
    | some _ => none
    | none =>
      let req := use.retire e
      some { s with
        retire := Function.update s.retire e
          (some (ensurePendingPayloadGCMutationOperation use.volumeID req.affectedExtentIDs
            req.affectedPageNos req.retiredPhysicalChunkIDs).run) }
  | .retire e fault =>
    match s.retire e with
    | some (.access act next) =>
      let (ans, store) := s.store.answer act fault
      some { s with store, retire := Function.update s.retire e (some (next ans)) }
    | _ => none
  | .endRetire e =>
    match s.retire e with
    | some (.done (.ok ())) =>
      some { s with
        retire := Function.update s.retire e none
        accepted := (use.retire e).retiredPhysicalChunkIDs ++ s.accepted }
    | some (.done (.error _)) => some { s with retire := Function.update s.retire e none }
    | _ => none
  | .startSweep k =>
    match s.sweep k with
    | some _ => none
    | none =>
      some { s with
        sweep := Function.update s.sweep k
          (some (sweepVolume use.chunkBatchSize use.replicaIDs use.spelling use.volumeID)) }
  | .sweep k fault =>
    match s.sweep k with
    | some (.access act next) =>
      let (ans, store) := s.store.answer act fault
      some { s with store, sweep := Function.update s.sweep k (some (next ans)) }
    | _ => none
  | .endSweep k =>
    match s.sweep k with
    | some (.done _) => some { s with sweep := Function.update s.sweep k none }
    | _ => none

def RetiredChunks.steps {ε κ : Type} [DecidableEq ε] [DecidableEq κ] (use : RetireUse ε)
    (s : RetiredChunks ε κ) : List (RetireEvent ε κ) → Option (RetiredChunks ε κ)
  | [] => some s
  | event :: events => (s.step use event).bind fun s => s.steps use events

end Namrbd
