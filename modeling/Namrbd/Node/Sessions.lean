import Namrbd.Replication.PhysicalChunkWrites

/-!
# Sessions of a node

`sbs/local/client.go`: a node keeps the session that is open on a volume in memory only. A
call that passes the writer fence and finds its volume is admitted by the session alone. A
close, a fence for another writer and a restart remove the session.

A read of a physical chunk or shard without attachment needs no session. It has no generation
and is left out, as are the calls that fail other checks.
-/

namespace Namrbd.Node

structure OpenSession where
  handle : String
  attachmentID : String
  generation : Nat

def volumeHandle (volumeID attachmentID : String) (generation : Nat) : String :=
  s!"vh-{volumeID}-{attachmentID}-{generation}"

def openSession (volumeID : String) (c : SBSRequestContext) :
    Option OpenSession → Except String OpenSession
  | none => .ok ⟨volumeHandle volumeID c.attachmentID c.generation, c.attachmentID, c.generation⟩
  | some current =>
    if current.attachmentID ≠ c.attachmentID ∨ current.generation ≠ c.generation then
      .error "volume already opened by different writer context"
    else .ok current

def validateOpenSession (handle : String) (c : SBSRequestContext) :
    Option OpenSession → Except String Unit
  | none => throw "volume is not opened"
  | some current => do
    if current.attachmentID ≠ c.attachmentID then throw "attachment mismatch"
    if current.generation ≠ c.generation then throw "generation mismatch"
    if handle ≠ "" ∧ current.handle ≠ handle then throw "volume handle mismatch"

inductive SessionEvent
  | openVolume (c : SBSRequestContext) (stateRead : Bool)
  | closeVolume (c : SBSRequestContext)
  | operation (handle : String) (c : SBSRequestContext)
  | fenced
  | restart

structure NodeSession where
  volumeID : String
  session : Option OpenSession := none
  /-- The generations of the calls accepted, in their order. -/
  accepted : List Nat := []

namespace NodeSession

variable (s : NodeSession)

def accept (c : SBSRequestContext) : NodeSession :=
  { s with accepted := s.accepted ++ [c.generation] }

/-- The session is stored before the state of the volume is read. -/
def openVolume (c : SBSRequestContext) (stateRead : Bool) : NodeSession :=
  match openSession s.volumeID c s.session with
  | .error _ => s
  | .ok session =>
    let s := { s with session := some session }
    if stateRead then s.accept c else s

def closeVolume (c : SBSRequestContext) : NodeSession :=
  match s.session with
  | none => s
  | some current =>
    if current.attachmentID ≠ c.attachmentID ∨ current.generation ≠ c.generation then s
    else { s with session := none }

def step : SessionEvent → Option NodeSession
  | .openVolume c stateRead => some (s.openVolume c stateRead)
  | .closeVolume c => some (s.closeVolume c)
  | .operation handle c =>
    match validateOpenSession handle c s.session with
    | .error _ => some s
    | .ok () => some (s.accept c)
  | .fenced | .restart => some { s with session := none }

end NodeSession

end Namrbd.Node
