import Namrbd.Node.Sessions

/-!
# Volume revisions of a node

`sbs/local/metadata.go`: a node stores the revision of a volume and counts, in memory, the
revisions it has given out. A logical write (a write, zero or discard) takes a revision above
both and stores it. The write of a physical chunk takes the next one of the counter and stores
nothing. Each has written its data by then.

A call that is answered from its idempotency record returns an earlier response and is left out.
-/

namespace Namrbd.Node

inductive CommitKind
  | logical
  | physical
  deriving DecidableEq

def commitID (volumeID : String) : CommitKind × Nat → String
  | (.logical, revision) => "commit-" ++ volumeID ++ "-" ++ toString revision
  | (.physical, revision) => "physical-commit-" ++ volumeID ++ "-" ++ toString revision

structure ObservedVolumeRevisionCounter where
  value : Nat := 0
  initialized : Bool := false

/-- How far a logical write comes after it has taken its revision. -/
inductive WriteEnd
  | stateNotStored
  | idempotencyNotStored
  | answered

inductive RevisionEvent
  | openVolume (c : SBSRequestContext) (stateRead : Bool)
  | write (handle : String) (c : SBSRequestContext) (ending : WriteEnd)
  | writePhysicalChunk (handle : String) (c : SBSRequestContext) (answered : Bool)
  | restart

structure NodeRevisions where
  volumeID : String
  volumeRevision : Nat
  session : Option OpenSession := none
  counter : ObservedVolumeRevisionCounter := {}
  /-- The mutations answered, in the order of their revisions' assignment. -/
  commits : List (CommitKind × Nat) := []

namespace NodeRevisions

variable (s : NodeRevisions)

def initializeObservedVolumeRevision : ObservedVolumeRevisionCounter :=
  ⟨max s.counter.value s.volumeRevision, true⟩

def bumpVolumeRevision (ending : WriteEnd) : NodeRevisions :=
  let revision := max (s.counter.value + 1) (s.volumeRevision + 1)
  let s := { s with counter := ⟨revision, true⟩ }
  match ending with
  | .stateNotStored => s
  | .idempotencyNotStored => { s with volumeRevision := revision }
  | .answered =>
    { s with volumeRevision := revision, commits := s.commits ++ [(.logical, revision)] }

def observePhysicalWriteRevision (answered : Bool) : NodeRevisions :=
  let counter := if s.counter.initialized then s.counter else s.initializeObservedVolumeRevision
  let revision := counter.value + 1
  let s := { s with counter := { counter with value := revision } }
  if answered then { s with commits := s.commits ++ [(.physical, revision)] } else s

def step : RevisionEvent → Option NodeRevisions
  | .openVolume c stateRead =>
    match openSession s.volumeID c s.session with
    | .error _ => some s
    | .ok session =>
      -- the session is kept when the state cannot be read afterwards
      let counter := if stateRead then s.initializeObservedVolumeRevision else s.counter
      some { s with session := some session, counter }
  | .write handle c ending =>
    match validateOpenSession handle c s.session with
    | .error _ => some s
    | .ok () => some (s.bumpVolumeRevision ending)
  | .writePhysicalChunk handle c answered =>
    match validateOpenSession handle c s.session with
    | .error _ => some s
    | .ok () => some (s.observePhysicalWriteRevision answered)
  | .restart => some { s with session := none, counter := {} }

end NodeRevisions

end Namrbd.Node
