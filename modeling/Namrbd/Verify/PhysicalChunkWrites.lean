import Namrbd.Replication.PhysicalChunkWrites

/-!
# What concurrent writes of one chunk leave

A call that succeeded has its data in the stored chunk, in every run in which no
call finds a record of its idempotency key and the chunk that a call has read is
still the stored one when the call writes.
-/

namespace Namrbd.ChunkWrites

open Function WritePhysicalChunkRequest Window

variable {ι Hash : Type} {cfg : PhysicalWriteConfig Hash} {reqs : ι → WritePhysicalChunkRequest}
  {s s' : ChunkWrites ι Hash} {node node' : DataNode Hash} {req other : WritePhysicalChunkRequest}
  {chunk : List Byte} {phase : ChunkWritePhase} {fault : Option (String × Bool)} {size : Nat}

def Apart (req other : WritePhysicalChunkRequest) : Prop :=
  req.chunkOffsetBytes + req.data.length ≤ other.chunkOffsetBytes ∨
    other.chunkOffsetBytes + other.data.length ≤ req.chunkOffsetBytes

/-- Calls on the same chunk write different bytes. -/
def DisjointWindows (reqs : ι → WritePhysicalChunkRequest) : Prop :=
  ∀ i j, i ≠ j → (reqs i).physicalChunkID = (reqs j).physicalChunkID → Apart (reqs i) (reqs j)

/-- The chunk has the bytes of the request. -/
structure Shows (size : Nat) (req : WritePhysicalChunkRequest) (chunk : List Byte) : Prop where
  length_eq : chunk.length = size
  window_le : req.chunkOffsetBytes + req.data.length ≤ size
  getElem?_eq : ∀ k < req.data.length, chunk[req.chunkOffsetBytes + k]? = req.data[k]?

def Contains (node : DataNode Hash) (req : WritePhysicalChunkRequest) : Prop :=
  ∃ chunk ∈ node.chunks req.physicalChunkID, Shows node.chunkSizeBytes req chunk

/-- The condition on a step: no record is found, and a chunk that is written back is the one
that was read. -/
def undisturbed (reqs : ι → WritePhysicalChunkRequest) (s : ChunkWrites ι Hash)
    (event : ι × Option (String × Bool)) : Bool :=
  let req := reqs event.1
  match s.phase event.1 with
  | .loadIdempotent => (s.node.idempotency req.idempotencyKey).isNone
  | .writeChunk (some chunk) => (s.node.readChunk req.physicalChunkID).toOption = some chunk
  | _ => true

/-- What a call has done by the phase it is in. -/
def Reached (node : DataNode Hash) (req : WritePhysicalChunkRequest) : ChunkWritePhase → Prop
  | .readChunk => req.chunkOffsetBytes + req.data.length ≤ node.chunkSizeBytes
  | .writeChunk read => Shows node.chunkSizeBytes req (req.merged read)
  | .observeRevision | .storeIdempotent _ | .done (.ok _) => Contains node req
  | _ => True

/-- Every call that has written is in its chunk. -/
def Stored (reqs : ι → WritePhysicalChunkRequest) (s : ChunkWrites ι Hash) : Prop :=
  ∀ i, Reached s.node (reqs i) (s.phase i)

/-- What an access does: the chunks stay, or the call writes its chunk. -/
structure Accessed (req : WritePhysicalChunkRequest) (node : DataNode Hash) (phase : ChunkWritePhase)
    (next : ChunkWritePhase × DataNode Hash) : Prop where
  reached : Reached next.2 req next.1
  size_eq : next.2.chunkSizeBytes = node.chunkSizeBytes
  chunks : next.2.chunks = node.chunks ∨ ∃ read, phase = .writeChunk read ∧
    next.2.chunks = update node.chunks req.physicalChunkID (some (req.merged read))

theorem length_readChunk {id : Nat} (h : node.readChunk id = .ok chunk) :
    chunk.length = node.chunkSizeBytes := by
  unfold ChunkServer.readChunk at h
  split at h
  · cases h
    exact List.length_replicate
  split at h
  · cases h
  next hlen =>
    cases h
    exact not_not.mp hlen

theorem Shows.overlay_other (h : Shows size req chunk) (hapart : Apart other req)
    (hwindow : other.chunkOffsetBytes + other.data.length ≤ size) :
    Shows size req (Window.overlay chunk other.chunkOffsetBytes other.data) := by
  rw [← h.length_eq] at hwindow
  refine ⟨(length_overlay hwindow).trans h.length_eq, h.window_le, fun k hk => ?_⟩
  unfold Apart at hapart
  rw [getElem?_overlay hwindow, if_neg (by omega)]
  exact h.getElem?_eq k hk

/-- A chunk that is written back keeps the window of another call. A whole chunk leaves no room
for one. -/
theorem Shows.merged_other (h : Shows size req chunk) {read : Option (List Byte)}
    (hmerged : Shows size other (other.merged read)) (hread : ∀ stored ∈ read, stored = chunk)
    (hapart : Apart other req) : Shows size req (other.merged read) := by
  have hwindow := hmerged.window_le
  cases read with
  | none =>
    have hlen : other.data.length = size := hmerged.length_eq
    have hle := h.window_le
    unfold Apart at hapart
    exact ⟨hlen, hle, fun k hk => by omega⟩
  | some stored =>
    obtain rfl := hread stored rfl
    exact h.overlay_other hapart hwindow

theorem reached_writePhysicalChunkAt (node : DataNode Hash) (req : WritePhysicalChunkRequest) :
    Reached node req (req.writePhysicalChunkAt node) := by
  unfold writePhysicalChunkAt
  split
  · trivial
  next hwindow =>
  split
  · trivial
  next hlen =>
  rw [not_not] at hlen
  unfold ChunkServer.checkWindow at hwindow
  split at hwindow
  · cases hwindow
  split
  next hwhole =>
    exact ⟨hlen.trans hwhole.2, by omega, fun k _ => by rw [hwhole.1, Nat.zero_add]; rfl⟩
  · change _ ≤ _
    omega

theorem Reached.of_contains (h : Reached node req phase)
    (hsize : node'.chunkSizeBytes = node.chunkSizeBytes)
    (hkept : Contains node req → Contains node' req) : Reached node' req phase := by
  unfold Reached at h ⊢
  rw [hsize]
  split at h
  · exact h
  · exact h
  · exact hkept h
  · exact hkept h
  · exact hkept h
  · trivial

variable [DecidableEq Hash]

theorem accessed_serve (h : Reached node req phase)
    (hfresh : phase = .loadIdempotent → node.idempotency req.idempotencyKey = none) :
    Accessed req node phase (req.serve cfg node phase) := by
  cases phase with
  | requireOpen =>
    refine ⟨?_, rfl, .inl rfl⟩
    dsimp only [serve]
    split
    · exact reached_writePhysicalChunkAt node req
    · trivial
  | loadIdempotent =>
    refine ⟨?_, rfl, .inl rfl⟩
    dsimp only [serve]
    rw [hfresh rfl]
    exact reached_writePhysicalChunkAt node req
  | readChunk =>
    refine ⟨?_, rfl, .inl rfl⟩
    dsimp only [serve]
    split
    · trivial
    next hread =>
    have hlen := length_readChunk hread
    dsimp only [Reached] at h
    have hwindow := h
    rw [← hlen] at hwindow
    refine ⟨(length_overlay hwindow).trans hlen, h, fun k hk => ?_⟩
    exact (getElem?_overlay hwindow _).trans
      (by rw [if_pos (by omega), Nat.add_sub_cancel_left])
  | writeChunk read =>
    dsimp only [serve]
    rw [if_neg (not_not.mpr h.length_eq)]
    exact ⟨⟨_, update_self .., h⟩, rfl, .inr ⟨read, rfl, rfl⟩⟩
  | observeRevision =>
    refine ⟨?_, rfl, .inl rfl⟩
    dsimp only [serve]
    split
    · exact h
    · exact h
  | storeIdempotent resp | done result => exact ⟨h, rfl, .inl rfl⟩

theorem accessed {next : ChunkWritePhase × DataNode Hash} (h : Reached node req phase)
    (hfresh : phase = .loadIdempotent → node.idempotency req.idempotencyKey = none)
    (haccess : req.access cfg fault node phase = some next) : Accessed req node phase next := by
  have hserve : Accessed req node phase (req.serve cfg node phase) := accessed_serve h hfresh
  unfold access at haccess
  split at haccess
  · cases haccess
  · cases haccess
    exact hserve
  next took _ =>
    cases haccess
    cases took with
    | false => exact ⟨trivial, rfl, .inl rfl⟩
    | true => exact ⟨trivial, hserve.size_eq, hserve.chunks⟩

variable [DecidableEq ι]

/-- An undisturbed step keeps the windows of the calls that have written. -/
theorem Stored.step {event : ι × Option (String × Bool)} (h : Stored reqs s)
    (hdisj : DisjointWindows reqs) (hevent : undisturbed reqs s event)
    (hstep : step cfg reqs s event = some s') : Stored reqs s' := by
  obtain ⟨⟨phase, node⟩, haccess, rfl⟩ := Option.map_eq_some_iff.mp hstep
  unfold undisturbed at hevent
  have hfresh : s.phase event.1 = .loadIdempotent →
      s.node.idempotency (reqs event.1).idempotencyKey = none := by
    intro hphase
    rw [hphase] at hevent
    exact Option.isNone_iff_eq_none.mp hevent
  obtain ⟨hreached, hsize, hchunks⟩ := accessed (h event.1) hfresh haccess
  intro j
  dsimp only
  by_cases hj : j = event.1
  · subst hj
    rw [update_self]
    exact hreached
  rw [update_of_ne hj]
  refine (h j).of_contains hsize ?_
  rintro ⟨stored, hstored, hshows⟩
  rw [← hsize] at hshows
  rcases hchunks with hchunks | ⟨read, hphase, hchunks⟩
  · exact ⟨stored, hchunks ▸ hstored, hshows⟩
  by_cases hid : (reqs event.1).physicalChunkID = (reqs j).physicalChunkID
  · have hread : s.node.readChunk (reqs event.1).physicalChunkID = .ok stored := by
      unfold ChunkServer.readChunk
      rw [hid, hstored]
      exact if_neg (not_not.mpr (hshows.length_eq.trans hsize))
    have hwrit := h event.1
    rw [hphase] at hevent hwrit
    dsimp only [Reached] at hwrit
    rw [← hsize] at hwrit
    refine ⟨_, ?_, hshows.merged_other hwrit ?_ (hdisj _ _ (Ne.symm hj) hid)⟩
    · rw [hchunks, hid]
      exact update_self ..
    · rintro chunk ⟨⟩
      dsimp only at hevent
      rw [hread] at hevent
      exact (Option.some.inj (of_decide_eq_true hevent)).symm
  · refine ⟨stored, ?_, hshows⟩
    rw [hchunks, update_of_ne (Ne.symm hid)]
    exact hstored

/-- In every run whose steps are undisturbed, the stored chunk contains the data of every call
that succeeded. -/
theorem contains_of_done (hdisjoint : DisjointWindows reqs)
    {events : List (ι × Option (String × Bool))}
    (hevents : Trace.Guarded (step cfg reqs) (fun s e => undisturbed reqs s e) (start reqs node) events)
    (hrun : Trace.run (step cfg reqs) (start reqs node) events = some s) (i : ι)
    {resp : WritePhysicalChunkResponse} (hdone : s.phase i = .done (.ok resp)) :
    Contains s.node (reqs i) := by
  have hstart : Stored reqs (start reqs node) := by
    intro i
    dsimp only [start, WritePhysicalChunkRequest.writePhysicalChunk]
    split
    · trivial
    · trivial
  have hstored := Trace.run_induction (Stored reqs)
    (fun _ _ _ h hevent hstep => h.step hdisjoint hevent hstep) hstart hevents hrun
  have hi := hstored i
  rwa [hdone] at hi

def halves (second : Bool) : WritePhysicalChunkRequest :=
  { physicalChunkID := 1, chunkOffsetBytes := second.toNat, lengthBytes := 1, data := [1]
    context := ⟨"r", "gw", "a", 1, if second then "k2" else "k1"⟩ }

theorem disjoint_halves : DisjointWindows halves := by
  unfold DisjointWindows Apart
  decide

def emptyNode : DataNode (Nat × Nat × List Byte) :=
  { chunkSizeBytes := 2, chunks := fun _ => none, data := fun _ => 0
    idempotency := fun _ => none, observedRevision := 0 }

def plainHash : PhysicalWriteConfig (Nat × Nat × List Byte) where
  writeHash offset length data := (offset, length, data)

/-- One call after the other: the chunk contains both halves. -/
theorem contains_halves : ∃ s, Trace.run (step plainHash halves) (start halves emptyNode)
      (.replicate 6 (false, none) ++ .replicate 6 (true, none)) = some s ∧
    Contains s.node (halves false) ∧ Contains s.node (halves true) := by
  have hevents : Trace.Guarded (step plainHash halves) (fun s e => undisturbed halves s e)
      (start halves emptyNode) (.replicate 6 (false, none) ++ .replicate 6 (true, none)) := by decide
  exact ⟨_, rfl, contains_of_done disjoint_halves hevents rfl false rfl,
    contains_of_done disjoint_halves hevents rfl true rfl⟩

/-- Both calls read the chunk before either writes it: both succeed, and a byte is lost. -/
theorem not_contains_halves : DisjointWindows halves ∧
    ∃ s, Trace.run (step plainHash halves) (start halves emptyNode)
        (.replicate 3 (false, none) ++ .replicate 6 (true, none) ++ .replicate 3 (false, none)) =
      some s ∧
    (∃ resp, s.phase false = .done (.ok resp)) ∧ (∃ resp, s.phase true = .done (.ok resp)) ∧
    ¬ Contains s.node (halves true) := by
  refine ⟨disjoint_halves, _, rfl, ⟨_, rfl⟩, ⟨_, rfl⟩, ?_⟩
  rintro ⟨_, ⟨⟩, hshows⟩
  exact absurd (hshows.getElem?_eq 0 (by decide)) (by decide)

end Namrbd.ChunkWrites
