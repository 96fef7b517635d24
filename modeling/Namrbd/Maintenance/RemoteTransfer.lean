import Namrbd.Lib.Text

/-!
# Remote transfers

`sbs/cluster/dr/transfer.go`: the progress of a transfer to a remote target. A transfer is
completed by what the target has verified, never by what the caller says, and a terminal
transfer only answers replays of its last input.
-/

namespace Namrbd.RemoteTransfer

open Text (trimSpace)

inductive TransferState where
  | admitted
  | transferring
  | verifying
  | completed
  | canceled
  | failed
  deriving DecidableEq

/-- The fields that a transfer takes over from the progress of a call. -/
structure Counters where
  attempt : Nat
  transferredBytes : Nat
  transferredObjects : Nat
  verifiedBytes : Nat
  verifiedObjects : Nat
  deriving DecidableEq

/-- The record of a transfer. -/
structure Transfer extends Counters where
  objectCheckpoint : String := ""
  expectedBytes : Nat
  expectedObjects : Nat
  targetVerificationReceipt : String := ""
  compatibilityDigest : String
  retryClass : String := "none"
  firstError : String := ""
  lastError : String := ""
  cancelRequested : Bool := false
  started : Bool := false
  completed : Bool := false
  state : TransferState := .admitted

/-- The input of a call. -/
structure Progress extends Counters where
  objectCheckpoint : String := ""
  targetVerificationReceipt : String := ""
  retryClass : String := ""
  errorMessage : String := ""
  cancelRequested : Bool := false
  callerCompleted : Bool := false

/-- The states that no update leaves. -/
def Transfer.terminal (current : Transfer) : Bool :=
  current.completed || current.state ∈ [.completed, .canceled, .failed]

end Namrbd.RemoteTransfer
