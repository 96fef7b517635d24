import Mathlib.Data.List.Basic
import Namrbd.Lib.Result

/-!
# The write intent queue of the service

The loop of the queue takes waiting requests off its channel, in batches of any composition. A
batch of several intents is one call of `PutWriteIntentBatch`, under the context of its first
caller and with one result for all. It is one transaction, or one for each intent when one of
the two keys of an intent occurs twice. The write of one intent, with its checks, is a parameter.
-/

namespace Namrbd.WriteIntentQueue

open List Result

inductive IntentErr (ε : Type) where
  | canceled
  | rejected (err : ε)

/-- An intent, and the number of transactions that the context of its caller lasts for when its
batch is applied. The caller is canceled when there are none. -/
structure Request (ω : Type) where
  intent : ω
  lives : Nat

/-- The stores that the metadata may be in. -/
inductive Backend where
  | pebble
  | tikv

/-- Whether a transaction may start `n` transactions into a context. `PebbleKV` does not look at
the context, a TiKV transaction does not commit under one that is done. -/
def Backend.lasts (lives n : Nat) : Backend → Bool
  | .pebble => true
  | .tikv => n ≤ lives

variable {κ σ ω ε : Type} [DecidableEq κ] (backend : Backend) (idempotencyKey mutationKey : ω → κ)
  (write : σ → ω → Except ε σ)

def runInTransaction (live : Bool) (apply : σ → Except ε σ) (s : σ) :
    Except (IntentErr ε) Unit × σ :=
  if live then
    match apply s with
    | .ok s' => (.ok (), s')
    | .error err => (.error (.rejected err), s)
  else (.error .canceled, s)

/-- One transaction for each intent, up to the first that fails. -/
def putEachWriteIntent : (lives : Nat) → List ω → σ → Except (IntentErr ε) Unit × σ
  | _, [], s => (.ok (), s)
  | lives, intent :: intents, s =>
    match runInTransaction (backend.lasts lives 1) (write · intent) s with
    | (.ok (), s') => putEachWriteIntent (lives - 1) intents s'
    | (.error err, s') => (.error err, s')

def hasDuplicateWriteIntentKeys (intents : List ω) : Bool :=
  ¬ (intents.map idempotencyKey).Nodup ∨ ¬ (intents.map mutationKey).Nodup

def putWriteIntentBatch (lives : Nat) (intents : List ω) (s : σ) :
    Except (IntentErr ε) Unit × σ :=
  if intents = [] then (.ok (), s)
  else if hasDuplicateWriteIntentKeys idempotencyKey mutationKey intents then
    putEachWriteIntent backend write lives intents s
  else runInTransaction (backend.lasts lives 1) (intents.foldlM write) s

/-- `PutWriteIntent`, which a single intent goes through, is a batch of one. -/
def applyItems (items : List (Request ω)) (s : σ) : List (Except (IntentErr ε) Unit) × σ :=
  let (err, s) := putWriteIntentBatch backend idempotencyKey mutationKey write
    (items.head?.elim 0 (·.lives)) (items.map (·.intent)) s
  (items.map fun _ => err, s)

/-- The loop over the batches that it drains, with the results that it sends. -/
def run (apply : List (Request ω) → σ → List (Except (IntentErr ε) Unit) × σ) :
    List (List (Request ω)) → σ → List (List (Except (IntentErr ε) Unit)) × σ
  | [], s => ([], s)
  | items :: batches, s =>
    let (errs, s) := apply items s
    let (rest, s) := run apply batches s
    (errs :: rest, s)

variable {backend idempotencyKey mutationKey write} {s s' : σ} {live : Bool} {lives : Nat}
  {intents : List ω} {items : List (Request ω)}

/-- A store of numbers that rejects 0. -/
def append (s : List Nat) (x : Nat) : Except Unit (List Nat) :=
  if x = 0 then .error () else .ok (s ++ [x])

end Namrbd.WriteIntentQueue
