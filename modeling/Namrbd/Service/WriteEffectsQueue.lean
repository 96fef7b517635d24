import Mathlib.Data.List.Dedup
import Mathlib.Logic.Function.Basic

/-!
# The write effects queue of the service

A request goes to the lane of its extent or page. Each lane has a channel and a worker,
which applies what it has received as one batch, under one deadline. A request that
finds the channel full is sent by a goroutine of its own. The calls on the metadata are
answered by the environment, which also says how long each of them takes.
-/

namespace Namrbd

/-- The fields of a request that decide its lane. A page has its volume and its number. -/
structure WriteEffectsRequest where
  volumeID : String
  normalizeExtentMappings : List Nat := []
  affectedPageNos : List Nat := []
  allocationPages : List (String × Nat) := []
  deriving DecidableEq

inductive Lane where
  | extent (volumeID : String) (extentID : Nat)
  | all (volumeID : String)
  | page (volumeID : String) (pageNo : Nat)
  | pageBucket (volumeID : String) (bucket laneBucketCount : Nat)
  deriving DecidableEq

structure WriteEffectsConfig where
  nativeAllocationFastPath : Bool := false
  laneBucketCount : Nat := 0
  batchMax : Nat := 16
  batchCoalesceWait : Bool := false
  batchEffects : Bool := true
  batchCommits : Bool := true
  deriving DecidableEq

def serviceWriteEffectsQueueDepth : Nat := 4096

def serviceWriteEffectsMaxAttempts : Nat := 5

namespace WriteEffectsRequest

variable (req : WriteEffectsRequest)

/-- The source sorts the numbers as well; only how many there are and a single one is read. -/
def hasSinglePageScopedAllocationEffects : Prop :=
  req.allocationPages ≠ [] ∧
    (req.affectedPageNos ++ req.allocationPages.map (·.2)).dedup.length = 1

instance : Decidable req.hasSinglePageScopedAllocationEffects :=
  inferInstanceAs (Decidable (_ ∧ _))

def pageLane (cfg : WriteEffectsConfig) : Lane :=
  let volumeID :=
    if req.affectedPageNos = [] then
      req.allocationPages.foldl (fun id page => if page.1 ≠ "" then page.1 else id) req.volumeID
    else req.volumeID
  let pageNos :=
    if req.affectedPageNos = [] then req.allocationPages.map (·.2) else req.affectedPageNos
  match pageNos.dedup with
  | [pageNo] =>
    if cfg.nativeAllocationFastPath ∧ 0 < cfg.laneBucketCount then
      .pageBucket volumeID (pageNo % cfg.laneBucketCount) cfg.laneBucketCount
    else .page volumeID pageNo
  | _ => .all volumeID

def serviceWriteEffectsLaneKey (cfg : WriteEffectsConfig) : Lane :=
  if cfg.nativeAllocationFastPath ∧ req.hasSinglePageScopedAllocationEffects then
    req.pageLane cfg
  else
    match req.normalizeExtentMappings.dedup with
    | [] => req.pageLane cfg
    | [extentID] => .extent req.volumeID extentID
    | _ => .all req.volumeID

def pages : List (String × Nat) :=
  req.affectedPageNos.map (req.volumeID, ·) ++
    req.allocationPages.map fun page =>
      (if page.1 ≠ "" then page.1 else req.volumeID, page.2)

def Conflict (req' : WriteEffectsRequest) : Prop := ∃ page ∈ req.pages, page ∈ req'.pages

instance (req' : WriteEffectsRequest) : Decidable (req.Conflict req') :=
  inferInstanceAs (Decidable (∃ page ∈ req.pages, page ∈ req'.pages))

end WriteEffectsRequest

structure QueuedRequest where
  seq : Nat
  req : WriteEffectsRequest
  commit : Bool
  deriving DecidableEq

inductive ApplyErr where
  | casConflict
  | deadlineExceeded
  | other (detail : String)
  deriving DecidableEq

inductive QueueErr where
  /-- "mixed append-only commit and effects-only items in one queue batch" -/
  | mixed
  | apply (err : ApplyErr)
  deriving DecidableEq

/-- The answer to a call after so many milliseconds, and the one it gives when its context ends
before. -/
structure CallAnswer where
  err : Option ApplyErr := none
  duration : Nat := 0
  late : Option ApplyErr := some .deadlineExceeded

/-- How the calls of one batch are answered: each attempt for the whole batch, and each attempt
for one request of it. -/
structure BatchAnswers where
  batch : Nat → CallAnswer := fun _ => {}
  single : QueuedRequest → Nat → CallAnswer := fun _ _ => {}

/-- The milliseconds that `detachedServiceWriteEffectsContext` gives a batch. -/
def serviceWriteEffectsTimeout : Nat := 30000

/-- The result of a call that begins `now` milliseconds into its batch, and when it ends. -/
def CallAnswer.at (answer : CallAnswer) (now : Nat) : Option ApplyErr × Nat :=
  if now + answer.duration < serviceWriteEffectsTimeout then (answer.err, now + answer.duration)
  else (answer.late, max now serviceWriteEffectsTimeout)

/-- A call that is repeated on a conflict; `left` attempts may follow this one. The wait before
the next one ends early when the context does. -/
def retry (answer : Nat → CallAnswer) : (left attempt now : Nat) → Option ApplyErr × Nat
  | 0, attempt, now => (answer attempt).at now
  | left + 1, attempt, now =>
    let (err, now) := (answer attempt).at now
    if err ≠ some .casConflict then (err, now)
    else if now + attempt * 5 < serviceWriteEffectsTimeout then
      retry answer left (attempt + 1) (now + attempt * 5)
    else (some .deadlineExceeded, max now serviceWriteEffectsTimeout)

def applyAttempts (answer : Nat → CallAnswer) : Nat → Option ApplyErr × Nat :=
  retry answer (serviceWriteEffectsMaxAttempts - 1) 1

/-- The calls for one request. A commit is not repeated. -/
def applyItem (answers : BatchAnswers) (item : QueuedRequest) : Nat → Option ApplyErr × Nat :=
  if item.commit then (answers.single item 1).at else applyAttempts (answers.single item)

/-- The calls for one request after the other, and when the last of them ends. -/
def applyEach (answers : BatchAnswers) :
    List QueuedRequest → Nat → List (QueuedRequest × Option QueueErr) × Nat
  | [], now => ([], now)
  | item :: items, now =>
    let (err, now) := applyItem answers item now
    let (rest, now) := applyEach answers items now
    ((item, err.map .apply) :: rest, now)

/-- `applyItems` and `applyCommitItems`: the requests of a batch with their errors, and when the
last call of the batch ends. -/
def applyItems (cfg : WriteEffectsConfig) (answers : BatchAnswers) :
    List QueuedRequest → List (QueuedRequest × Option QueueErr) × Nat
  | [] => ([], 0)
  | first :: rest =>
    let items := first :: rest
    let supported := if first.commit then cfg.batchCommits else cfg.batchEffects
    if ∃ item ∈ items, item.commit ≠ first.commit then
      (items.map fun item => (item, some .mixed), 0)
    else if supported then
      match applyAttempts answers.batch 0 with
      | (none, now) => (items.map fun item => (item, none), now)
      | (some _, now) => applyEach answers items now
    else applyEach answers items 0

/-- The lanes, and in what order requests were applied and failed. -/
structure WriteEffectsQueue where
  channel : Lane → List QueuedRequest := fun _ => []
  /-- Requests whose goroutines have yet to send them. -/
  sending : Lane → List QueuedRequest := fun _ => []
  batch : Lane → List QueuedRequest := fun _ => []
  /-- What is left of the batch that a worker applies. -/
  running : Lane → List (QueuedRequest × Option QueueErr) := fun _ => []
  nextSeq : Nat := 0
  applied : List QueuedRequest := []
  failed : List (QueuedRequest × QueueErr) := []

inductive QueueEvent where
  | enqueue (req : WriteEffectsRequest) (commit : Bool)
  | send (lane : Lane) (item : QueuedRequest)
  | receive (lane : Lane)
  | start (lane : Lane) (answers : BatchAnswers)
  | finish (lane : Lane)

namespace WriteEffectsQueue

variable (cfg : WriteEffectsConfig) (q : WriteEffectsQueue)

def enqueue (req : WriteEffectsRequest) (commit : Bool) : WriteEffectsQueue :=
  let lane := req.serviceWriteEffectsLaneKey cfg
  let item : QueuedRequest := ⟨q.nextSeq, req, commit⟩
  let q := { q with nextSeq := q.nextSeq + 1 }
  if (q.channel lane).length < serviceWriteEffectsQueueDepth then
    { q with channel := Function.update q.channel lane (q.channel lane ++ [item]) }
  else { q with sending := Function.update q.sending lane (q.sending lane ++ [item]) }

/-- Any of the goroutines of a lane may be the next to send. -/
def send (lane : Lane) (item : QueuedRequest) : Option WriteEffectsQueue :=
  if item ∈ q.sending lane ∧ (q.channel lane).length < serviceWriteEffectsQueueDepth then
    some { q with
      sending := Function.update q.sending lane ((q.sending lane).erase item)
      channel := Function.update q.channel lane (q.channel lane ++ [item]) }
  else none

/-- A worker that applies nothing receives up to `batchMax` requests. -/
def receive (lane : Lane) : Option WriteEffectsQueue :=
  match q.channel lane with
  | [] => none
  | item :: rest =>
    if q.running lane = [] ∧ (q.batch lane).length < cfg.batchMax then
      some { q with
        channel := Function.update q.channel lane rest
        batch := Function.update q.batch lane (q.batch lane ++ [item]) }
    else none

/-- It begins to apply them when it has no more to receive, or has waited for long enough. -/
def start (lane : Lane) (answers : BatchAnswers) : Option WriteEffectsQueue :=
  if q.running lane = [] ∧ (cfg.batchMax ≤ (q.batch lane).length ∨ q.channel lane = [] ∨
      cfg.batchCoalesceWait) then
    some { q with
      running := Function.update q.running lane (applyItems cfg answers (q.batch lane)).1
      batch := Function.update q.batch lane [] }
  else none

def finish (lane : Lane) : Option WriteEffectsQueue :=
  match q.running lane with
  | [] => none
  | (item, outcome) :: rest =>
    let q := { q with running := Function.update q.running lane rest }
    match outcome with
    | none => some { q with applied := q.applied ++ [item] }
    | some err => some { q with failed := q.failed ++ [(item, err)] }

def step : QueueEvent → Option WriteEffectsQueue
  | .enqueue req commit => some (q.enqueue cfg req commit)
  | .send lane item => q.send lane item
  | .receive lane => q.receive cfg lane
  | .start lane answers => q.start cfg lane answers
  | .finish lane => q.finish lane

end WriteEffectsQueue

end Namrbd
