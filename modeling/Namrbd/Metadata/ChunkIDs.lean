import Mathlib.Logic.Function.Basic
import Namrbd.Metadata.Repository

/-!
# Allocating chunk ids

The chunk id sequence of a volume is one record of the store. A repository value
reads it and writes it back under a lock of its own process, in two accesses of
the store, so that other values may come between them. A cached allocator takes
blocks from a repository and hands out their ids without asking again. Ids are
64-bit words.
-/

namespace Namrbd

/-- Sums of 64-bit words wrap around. -/
def uint64 (n : Nat) : Nat := n % 2 ^ 64

/-- The ids from `next` up to `stop` are left. -/
structure ChunkIDCacheRange where
  next : Nat
  stop : Nat
  deriving DecidableEq

/-- `end - next` in 64-bit words. -/
def ChunkIDCacheRange.remaining (cached : ChunkIDCacheRange) : Nat :=
  uint64 (cached.stop + 2 ^ 64 - cached.next)

/-- Who waits for a reservation: a caller of the repository, or a cached allocator that
refills its block to hand out `count` ids. -/
inductive ChunkIDCaller (κ : Type) where
  | direct
  | cached (allocator : κ) (count : Nat)
  deriving DecidableEq

/-- A repository that has read the sequence and not written it yet. -/
structure ChunkIDReservation (κ : Type) where
  caller : ChunkIDCaller κ
  startID : Nat
  count : Nat
  deriving DecidableEq

/-- The repositories are named by `ι`, the cached allocators by `κ`. `returned` is the
history of the ranges handed to callers. -/
structure ChunkIDs (ι κ : Type) where
  sequence : Nat
  reserving : ι → Option (ChunkIDReservation κ) := fun _ => none
  caches : κ → ChunkIDCacheRange := fun _ => ⟨0, 0⟩
  /-- The allocator's lock is held while it refills. -/
  refilling : κ → Bool := fun _ => false
  returned : List (Nat × Nat) := []

/-- The repository of each allocator, and how many ids it takes at once. -/
structure ChunkIDConfig (ι κ : Type) where
  next : κ → ι
  cacheSize : κ → Nat

/-- How the write of the sequence ends; a lost one is stored and reported as failed. -/
inductive PutOutcome where
  | written
  | lost
  | failed
  deriving DecidableEq

inductive ChunkIDEvent (ι κ : Type) where
  | allocate (repository : ι) (count : Nat)
  | allocateCached (allocator : κ) (count : Nat)
  | put (repository : ι) (outcome : PutOutcome)

namespace ChunkIDs

variable {ι κ : Type} [DecidableEq ι] [DecidableEq κ]

/-- A missing or zero sequence starts at 1. -/
def getNextChunkID (s : ChunkIDs ι κ) : Nat := if s.sequence = 0 then 1 else s.sequence

/-- Reads the sequence, under the mutex of the repository. -/
def reserve (s : ChunkIDs ι κ) (repository : ι) (caller : ChunkIDCaller κ) (count : Nat) :
    Option (ChunkIDs ι κ) :=
  match s.reserving repository with
  | some _ => none
  | none => some { s with
      reserving := Function.update s.reserving repository
        (some { caller, startID := s.getNextChunkID, count }) }

/-- The put of the sequence has ended, and the caller is answered. -/
def answer (s : ChunkIDs ι κ) (repository : ι) (reservation : ChunkIDReservation κ)
    (outcome : PutOutcome) : ChunkIDs ι κ :=
  let nextID := uint64 (reservation.startID + reservation.count)
  let s := { s with
    reserving := Function.update s.reserving repository none
    sequence := if outcome = .failed then s.sequence else nextID }
  match reservation.caller with
  | .direct =>
    if outcome = .written then
      { s with returned := (reservation.startID, reservation.count) :: s.returned }
    else s
  | .cached allocator count =>
    let s := { s with refilling := Function.update s.refilling allocator false }
    if outcome = .written then { s with
      caches := Function.update s.caches allocator
        ⟨uint64 (reservation.startID + count), nextID⟩
      returned := (reservation.startID, count) :: s.returned }
    else s

def refillCount (cfg : ChunkIDConfig ι κ) (allocator : κ) (count : Nat) : Nat :=
  if cfg.cacheSize allocator < count then count else cfg.cacheSize allocator

def step (cfg : ChunkIDConfig ι κ) (s : ChunkIDs ι κ) : ChunkIDEvent ι κ → Option (ChunkIDs ι κ)
  | .allocate repository count =>
    if count = 0 then some s else s.reserve repository .direct count
  | .allocateCached allocator count =>
    if count = 0 then some s
    else if cfg.cacheSize allocator = 0 ∨ cfg.cacheSize allocator < count then
      s.reserve (cfg.next allocator) .direct count
    else if s.refilling allocator then none
    else if (s.caches allocator).remaining < count then
      { s with refilling := Function.update s.refilling allocator true }.reserve
        (cfg.next allocator) (.cached allocator count) (refillCount cfg allocator count)
    else
      let cached := s.caches allocator
      some { s with
        caches := Function.update s.caches allocator
          { cached with next := uint64 (cached.next + count) }
        returned := (cached.next, count) :: s.returned }
  | .put repository outcome =>
    match s.reserving repository with
    | none => none
    | some reservation => some (s.answer repository reservation outcome)

def steps (cfg : ChunkIDConfig ι κ) (s : ChunkIDs ι κ) :
    List (ChunkIDEvent ι κ) → Option (ChunkIDs ι κ)
  | [] => some s
  | e :: events => (s.step cfg e).bind fun s => s.steps cfg events

end ChunkIDs

end Namrbd
