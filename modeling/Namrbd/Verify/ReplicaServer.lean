import Namrbd.Replication.RemoteReplica
import Namrbd.Verify.PayloadRead

/-!
# The server of a replica

A replica write changes the objects of its chunks and no others. If it succeeds,
an object shows the payload where the payload covers its chunk; when two chunks of
a write share an object, it shows the later one (`writeRemoteTarget_writes`).

Through a chunk map the objects of a server are an array. A read of an extent
returns the array of one of the servers that it reaches (`readViaChunkAwareRPC_array`).
-/

namespace Namrbd

open ChunkServer List Option Result Window

variable {chunk : ResolvedChunkWrite} {n c i : Nat} {f : Nat → Option Byte} {server : ChunkServer}
  {faults : RemoteFaults} {data : List Byte}

/-- The last chunk of a write with a given object. -/
def lastChunk (chunks : List ResolvedChunkWrite) (id : Nat) : Option ResolvedChunkWrite :=
  chunks.reverse.find? (·.physicalChunkID == id)

@[simp] theorem lastChunk_nil (id : Nat) : lastChunk [] id = none := rfl

theorem lastChunk_cons (chunk : ResolvedChunkWrite) (chunks : List ResolvedChunkWrite) (id : Nat) :
    lastChunk (chunk :: chunks) id = (lastChunk chunks id).or
      (if chunk.physicalChunkID = id then some chunk else none) := by
  simp [lastChunk, find?_append, find?_singleton, beq_iff_eq]

/-- The object `id` shows `f` on the part of chunk `c` that lies in `[start, start + n)`. -/
def ChunkServer.ShowsAt (server : ChunkServer) (f : Nat → Option Byte) (start n id c : Nat) : Prop :=
  ∀ i, start ≤ i → i < start + n → c * server.chunkSizeBytes ≤ i →
    i < c * server.chunkSizeBytes + server.chunkSizeBytes →
      ∃ value, server.chunks id = some value ∧ value.length = server.chunkSizeBytes ∧
        value[i - c * server.chunkSizeBytes]? = f i

/-- From `server` to `server'` the objects of `chunks` were written, with the bytes of `f` in
`[start, start + n)` if `ok` holds. -/
structure Writes (f : Nat → Option Byte) (start n : Nat) (chunks : List ResolvedChunkWrite)
    (ok : Prop) (server server' : ChunkServer) : Prop where
  chunkSizeBytes_eq : server'.chunkSizeBytes = server.chunkSizeBytes
  chunks_eq : ∀ id, lastChunk chunks id = none → server'.chunks id = server.chunks id
  shows : ok → ∀ id chunk, lastChunk chunks id = some chunk →
    server'.ShowsAt f start n id chunk.logicalChunk

namespace Writes

variable {start : Nat} {chunks : List ResolvedChunkWrite} {ok ok' : Prop}
  {server1 server2 : ChunkServer}

theorem nil (server : ChunkServer) : Writes f start n [] ok server server :=
  ⟨rfl, fun _ _ => rfl, fun _ _ _ h => by simp at h⟩

theorem unreached (chunks : List ResolvedChunkWrite) (server : ChunkServer) :
    Writes f start n chunks False server server :=
  ⟨rfl, fun _ _ => rfl, False.elim⟩

theorem imp (h : Writes f start n chunks ok server server1) (himp : ok' → ok) :
    Writes f start n chunks ok' server server1 :=
  ⟨h.chunkSizeBytes_eq, h.chunks_eq, fun hok => h.shows (himp hok)⟩

theorem cons (h : Writes f start n [chunk] ok server server1)
    (h' : Writes f start n chunks ok' server1 server2) :
    Writes f start n (chunk :: chunks) (ok ∧ ok') server server2 := by
  have hsingle : ∀ id, lastChunk [chunk] id =
      if chunk.physicalChunkID = id then some chunk else none := by
    simp [lastChunk_cons]
  refine ⟨h'.chunkSizeBytes_eq.trans h.chunkSizeBytes_eq, fun id hnone => ?_, ?_⟩
  · simp only [lastChunk_cons, or_eq_none_iff] at hnone
    exact (h'.chunks_eq id hnone.1).trans (h.chunks_eq id (by rw [hsingle, hnone.2]))
  rintro ⟨hok, hok'⟩ id chunk' hsome
  cases hlast : lastChunk chunks id with
  | some later =>
    simp only [lastChunk_cons, hlast, some_or, some.injEq] at hsome
    exact hsome ▸ h'.shows hok' id later hlast
  | none =>
    -- the object is not written again
    simp only [lastChunk_cons, hlast, none_or] at hsome
    have hshows := h.shows hok id chunk' (by rw [hsingle, hsome])
    unfold ShowsAt at hshows ⊢
    rw [h'.chunkSizeBytes_eq, h'.chunks_eq id hlast]
    exact hshows

end Writes

section Calls

theorem writePhysicalChunk_frame (faults : RemoteFaults) (server : ChunkServer) (id off : Nat)
    (data : List Byte) :
    (writePhysicalChunk faults server id off data).2.chunkSizeBytes = server.chunkSizeBytes ∧
      ∀ k, k ≠ id → (writePhysicalChunk faults server id off data).2.chunks k = server.chunks k := by
  have hwrit : ∀ written, server.writePhysicalChunkAt id off data.length data = .ok written →
      written.chunkSizeBytes = server.chunkSizeBytes ∧
        ∀ k, k ≠ id → written.chunks k = server.chunks k := by
    intro written hok
    obtain ⟨-, -, hok⟩ := bind_eq_ok.mp hok
    obtain ⟨-, hok⟩ := throwIf_eq_ok.mp hok
    split at hok
    · cases hok
      exact ⟨rfl, fun k hk => Function.update_of_ne hk _ _⟩
    · obtain ⟨chunk, -, hok⟩ := bind_eq_ok.mp hok
      cases hok
      exact ⟨rfl, fun k hk => Function.update_of_ne hk _ _⟩
  unfold writePhysicalChunk
  split
  · next hok _ => exact hwrit _ hok
  · exact ⟨rfl, fun _ _ => rfl⟩
  · next hok _ => exact hwrit _ hok
  · exact ⟨rfl, fun _ _ => rfl⟩

variable {id : Nat}

theorem length_loadRemoteChunkForMerge {chunkSize : Nat} {header : Option PayloadEncryptionHeader}
    {full : Bool} {merged : List Byte}
    (h : loadRemoteChunkForMerge faults server id chunkSize header full = .ok merged) :
    merged.length = chunkSize := by
  unfold loadRemoteChunkForMerge at h
  split at h
  · cases h
    exact length_replicate
  dsimp only at h
  split at h
  · split at h
    · cases h
      exact length_replicate
    · cases h
  · next data _ =>
    split at h
    · cases h
    next hlong =>
    split at h
    · cases h
    · cases h
      rw [length_take]
      omega

end Calls

section Chunks

variable {plan : ExtentWritePlan} {start : Nat} {payload : List Byte}
  {chunks : List ResolvedChunkWrite}

theorem writePhysicalChunk_writes (hlen : data.length = server.chunkSizeBytes)
    (hdata : ∀ i, start ≤ i → i < start + payload.length →
      chunk.logicalChunk * server.chunkSizeBytes ≤ i →
      i < chunk.logicalChunk * server.chunkSizeBytes + server.chunkSizeBytes →
      data[i - chunk.logicalChunk * server.chunkSizeBytes]? = f i) :
    Writes f start payload.length [chunk]
      ((writePhysicalChunk faults server chunk.physicalChunkID 0 data).1 = .ok ()) server
      (writePhysicalChunk faults server chunk.physicalChunkID 0 data).2 := by
  obtain ⟨hsize, hframe⟩ := writePhysicalChunk_frame faults server chunk.physicalChunkID 0 data
  refine ⟨hsize, fun id hnone => hframe id ?_, fun hok id chunk' hsome => ?_⟩
  · rintro rfl
    simp [lastChunk_cons] at hnone
  simp only [lastChunk_cons, lastChunk_nil, none_or, ite_none_right_eq_some, some.injEq] at hsome
  obtain ⟨rfl, rfl⟩ := hsome
  unfold ShowsAt
  rw [hsize]
  refine fun i hlo hhi hclo hchi => ⟨data, ?_, hlen, hdata i hlo hhi hclo hchi⟩
  unfold writePhysicalChunk at hok ⊢
  split at hok
  · next written hwrit _ =>
    obtain ⟨-, -, hwrit⟩ := bind_eq_ok.mp hwrit
    obtain ⟨-, hwrit⟩ := throwIf_eq_ok.mp hwrit
    rw [if_pos ⟨rfl, hlen⟩] at hwrit
    cases hwrit
    simp [overlay_whole, hlen]
  all_goals cases hok

def fullPhysicalChunkWriteTask (plan : ExtentWritePlan) (start : Nat) (payload : List Byte)
    (chunk : ResolvedChunkWrite) : Option (Option (Nat × List Byte)) :=
  let chunkStart := chunk.logicalChunk * plan.chunkSizeBytes
  let copyStart := max start chunkStart
  let copyEnd := min (start + payload.length) (chunkStart + plan.chunkSizeBytes)
  if chunk.basePhysicalChunkID ≠ 0 ∧ chunk.basePhysicalChunkID ≠ chunk.physicalChunkID then none
  else if copyEnd ≤ copyStart then some none
  else if copyStart - chunkStart ≠ 0 ∨ copyEnd - copyStart ≠ plan.chunkSizeBytes then none
  else some (some (chunk.physicalChunkID,
    Window.slice payload (copyStart - start) (copyEnd - copyStart)))

abbrev chunkPayload (start : Nat) (payload : List Byte) (cs c : Nat) : List Byte :=
  Window.slice payload (max start (c * cs) - start)
    (min (start + payload.length) (c * cs + cs) - max start (c * cs))

variable (hpay : ∀ i, start ≤ i → i < start + payload.length → payload[i - start]? = f i)

include hpay

theorem getElem?_chunkPayload {cs : Nat} (hlo : start ≤ i) (hhi : i < start + payload.length)
    (hclo : c * cs ≤ i) (hchi : i < c * cs + cs) :
    (chunkPayload start payload cs c)[i - max start (c * cs)]? = f i := by
  rw [getElem?_slice, if_pos (by omega), ← hpay i hlo hhi]
  congr 1
  omega

variable (hcs : plan.chunkSizeBytes = server.chunkSizeBytes)

include hcs

/-- A chunk that is written shows the payload when the write has succeeded, and another object is
left alone in any case. -/
theorem writeRemoteChunk_writes (faults : RemoteFaults) (chunk : ResolvedChunkWrite) :
    Writes f start payload.length [chunk]
      ((writeRemoteChunk faults plan start payload server chunk).1 = .ok ()) server
      (writeRemoteChunk faults plan start payload server chunk).2 := by
  unfold writeRemoteChunk
  dsimp only
  rw [hcs]
  split
  · -- nothing of the chunk is written
    next hempty =>
    refine ⟨rfl, fun _ _ => rfl, fun _ id chunk' hsome i hlo hhi hclo hchi => ?_⟩
    simp only [lastChunk_cons, lastChunk_nil, none_or, ite_none_right_eq_some, some.injEq] at hsome
    obtain ⟨-, rfl⟩ := hsome
    dsimp only at hclo hchi
    omega
  · next hcopy =>
    have hslice :
        (chunkPayload start payload server.chunkSizeBytes chunk.logicalChunk).length =
          min (start + payload.length)
              (chunk.logicalChunk * server.chunkSizeBytes + server.chunkSizeBytes) -
            max start (chunk.logicalChunk * server.chunkSizeBytes) :=
      length_slice (by omega)
    split
    · -- the bytes are merged into the object
      next hpart =>
      split
      · exact (Writes.unreached _ _).imp nofun
      next merged hmerged =>
      have hmergedLen := length_loadRemoteChunkForMerge hmerged
      have hfits : max start (chunk.logicalChunk * server.chunkSizeBytes) -
          chunk.logicalChunk * server.chunkSizeBytes +
            (chunkPayload start payload server.chunkSizeBytes chunk.logicalChunk).length ≤
          merged.length := by
        omega
      refine writePhysicalChunk_writes ((length_overlay hfits).trans hmergedLen) ?_
      intro i hlo hhi hclo hchi
      rw [getElem?_overlay hfits, if_pos (by omega),
        ← getElem?_chunkPayload hpay hlo hhi hclo hchi]
      congr 1
      omega
    · -- the payload covers the chunk
      next hwhole =>
      simp only [not_or, not_not] at hwhole
      rw [hwhole.1]
      refine writePhysicalChunk_writes (hslice.trans hwhole.2) ?_
      intro i hlo hhi hclo hchi
      rw [← getElem?_chunkPayload hpay hlo hhi hclo hchi]
      congr 1
      omega

theorem writeRemoteChunks_writes :
    Writes f start payload.length chunks
      ((writeRemoteChunks faults plan start payload chunks server).1 = .ok ()) server
      (writeRemoteChunks faults plan start payload chunks server).2 := by
  induction chunks generalizing server with
  | nil => exact .nil server
  | cons chunk chunks ih =>
    have hone := writeRemoteChunk_writes hpay hcs faults chunk
    rw [writeRemoteChunks]
    split
    · next err written hwrite =>
      rw [hwrite] at hone
      exact (hone.cons (.unreached chunks written)).imp nofun
    next written hwrite =>
    rw [hwrite] at hone
    have hrest := ih (hcs.trans hone.chunkSizeBytes_eq.symm)
    exact (hone.cons hrest).imp fun hok => ⟨rfl, hok⟩

theorem fullPhysicalChunkWriteTask_cases (faults : RemoteFaults) {task : Option (Nat × List Byte)}
    (h : fullPhysicalChunkWriteTask plan start payload chunk = some task) :
    (task = none ∧ Writes f start payload.length [chunk] True server server) ∨
      ∃ data, task = some (chunk.physicalChunkID, data) ∧
        Writes f start payload.length [chunk]
          ((writePhysicalChunk faults server chunk.physicalChunkID 0 data).1 = .ok ()) server
          (writePhysicalChunk faults server chunk.physicalChunkID 0 data).2 := by
  unfold fullPhysicalChunkWriteTask at h
  dsimp only at h
  rw [hcs] at h
  split at h
  · cases h
  split at h
  · next hempty =>
    cases h
    refine .inl ⟨rfl, rfl, fun _ _ => rfl, fun _ id chunk' hsome i hlo hhi hclo hchi => ?_⟩
    simp only [lastChunk_cons, lastChunk_nil, none_or, ite_none_right_eq_some, some.injEq] at hsome
    obtain ⟨-, rfl⟩ := hsome
    omega
  · split at h
    · cases h
    · next hcopy hwhole =>
      cases h
      simp only [not_or, not_not] at hwhole
      refine .inr ⟨_, rfl, writePhysicalChunk_writes ?_ ?_⟩
      · rw [length_slice (by omega), hwhole.2]
      intro i hlo hhi hclo hchi
      rw [← getElem?_chunkPayload hpay hlo hhi hclo hchi]
      congr 1
      omega

theorem writePhysicalChunkTasks_writes (faults : RemoteFaults)
    {tasks : List (Option (Nat × List Byte))} (htasks : Forall₂ (fun chunk task =>
      fullPhysicalChunkWriteTask plan start payload chunk = some task) chunks tasks) :
    Writes f start payload.length chunks
      ((writePhysicalChunkTasks faults (tasks.filterMap id) server).1 = []) server
      (writePhysicalChunkTasks faults (tasks.filterMap id) server).2 := by
  induction htasks generalizing server with
  | nil => exact .nil server
  | @cons chunk task chunks tasks htask _ ih =>
    rcases fullPhysicalChunkWriteTask_cases hpay hcs faults htask with
      ⟨rfl, hone⟩ | ⟨data, rfl, hone⟩
    · exact (hone.cons (ih hcs)).imp fun hok => ⟨trivial, hok⟩
    rw [filterMap_cons_some (by rfl), writePhysicalChunkTasks]
    split
    · next written hwrite =>
      rw [hwrite] at hone
      exact (hone.cons (ih (hcs.trans hone.chunkSizeBytes_eq.symm))).imp fun hok => ⟨rfl, hok⟩
    · next err written hwrite =>
      rw [hwrite] at hone
      exact (hone.cons (ih (hcs.trans hone.chunkSizeBytes_eq.symm))).imp nofun

theorem writeViaChunkAwareRPC_writes :
    Writes f start payload.length chunks
      ((writeViaChunkAwareRPC faults plan start payload chunks server).1 = .ok ()) server
      (writeViaChunkAwareRPC faults plan start payload chunks server).2 := by
  unfold writeViaChunkAwareRPC
  split
  · next hnil =>
    subst hnil
    exact .nil server
  split
  · exact (Writes.unreached _ _).imp nofun
  dsimp only
  split
  · exact writeRemoteChunks_writes hpay hcs
  next tasks htasks =>
  -- two or more chunks that are all written whole
  have hfull : fullPhysicalChunkWriteTasks plan start payload chunks = some tasks := by
    split at htasks
    · cases htasks
    · exact (filter_eq_some_iff.mp htasks).1
  obtain ⟨tasks', htasks', rfl⟩ := map_eq_some_iff.mp hfull
  have hwrites := writePhysicalChunkTasks_writes hpay hcs faults (mapM_eq_some.mp htasks')
  split
  · next hwrite =>
    rw [hwrite] at hwrites
    exact hwrites.imp fun _ => rfl
  · next failures written hfailures hwrite =>
    rw [hwrite] at hwrites
    exact hwrites.imp nofun

end Chunks

/-! ## Reading -/

/-- The bytes that the objects of a server show through a chunk map. -/
def ChunkServer.array (server : ChunkServer) (entry : Nat → ChunkEntry) (i : Nat) : Byte :=
  let c := i / server.chunkSizeBytes
  if (entry c).physicalChunkID = 0 then 0
  else ((server.chunks (entry c).physicalChunkID).bind
    (·[i - c * server.chunkSizeBytes]?)).getD 0

section Read

variable {g : Geometry} {entry : Nat → ChunkEntry} {down : Bool} {plan : ExtentReadPlan}
  {start : Nat} {out : List Byte} {missing : Bool} {err : ClientErr}

theorem array_of_zero (hcs : 0 < server.chunkSizeBytes) (hid : (entry c).physicalChunkID = 0)
    (hlo : c * server.chunkSizeBytes ≤ i)
    (hhi : i < c * server.chunkSizeBytes + server.chunkSizeBytes) : server.array entry i = 0 := by
  simp only [array, (div_eq_iff_chunk hcs).mpr ⟨hlo, hhi⟩, if_pos hid]

theorem readPhysicalChunkAt_ok {id off len : Nat}
    (h : server.readPhysicalChunkAt id off len = .ok data) :
    data.length = len ∧
      ∀ i < len, data[i]? = some (((server.chunks id).bind (·[off + i]?)).getD 0) := by
  obtain ⟨⟨⟩, hwindow, h⟩ := bind_eq_ok.mp h
  obtain ⟨chunk, hchunk, h⟩ := bind_eq_ok.mp h
  cases h
  have hbound : off + len ≤ server.chunkSizeBytes := by
    unfold checkWindow at hwindow
    split at hwindow
    · cases hwindow
    · next hcond => omega
  -- an object has the size of a chunk, and a missing one reads as zeros
  have hobject : chunk.length = server.chunkSizeBytes ∧
      ∀ k < chunk.length, chunk[k]? = some (((server.chunks id).bind (·[k]?)).getD 0) := by
    unfold ChunkServer.readChunk at hchunk
    cases hvalue : server.chunks id with
    | none =>
      rw [hvalue] at hchunk
      cases hchunk
      refine ⟨length_replicate, fun k hk => ?_⟩
      rw [length_replicate] at hk
      simp [hk]
    | some value =>
      simp only [hvalue] at hchunk
      split at hchunk
      · cases hchunk
      next hlen =>
      cases hchunk
      refine ⟨not_not.mp hlen, fun k hk => ?_⟩
      simp [getElem?_eq_getElem hk]
  refine ⟨length_slice (by omega), fun i hi => ?_⟩
  rw [getElem?_slice, if_pos hi, hobject.2 _ (by omega)]

/-- A chunk that is read from a server has the bytes that its object shows. -/
theorem client_readChunk_array (hcs : plan.chunkSizeBytes = server.chunkSizeBytes)
    (hpos : 0 < server.chunkSizeBytes) (hn : 0 < n) {done : List Nat}
    (hplain : (entry c).encryption = none) (hhits : Hits server.chunkSizeBytes start n c)
    {out' : List Byte} (hout : out = window
      (fun i => if i / server.chunkSizeBytes ∈ done then server.array entry i else 0) start n)
    (h : (server.client down).readChunk plan start n out (readChunkOf entry c) = .ok out') :
    ((entry c).physicalChunkID ≠ 0 → down = false) ∧
      out' = window
        (fun i => if i / server.chunkSizeBytes ∈ done ++ [c] then server.array entry i else 0)
        start n := by
  have hmem : ∀ i, i / server.chunkSizeBytes ∈ done ++ [c] ↔ i / server.chunkSizeBytes ∈ done ∨
      (c * server.chunkSizeBytes ≤ i ∧ i < c * server.chunkSizeBytes + server.chunkSizeBytes) := by
    intro i
    rw [mem_append, mem_singleton, div_eq_iff_chunk hpos]
  unfold RemoteClient.readChunk at h
  simp only [readChunkOf, hcs, hplain, isSome_none, Bool.false_eq_true, if_false,
    isNone_none, Bool.and_true, beq_iff_eq] at h
  unfold Hits at hhits
  split at h
  · next hempty => omega
  next hcopy =>
  split at h
  · next hid =>
    cases h
    refine ⟨fun hne => absurd hid hne, ?_⟩
    rw [hout]
    refine window_congr fun i hlo hhi => ?_
    simp only [hmem i]
    by_cases hin : c * server.chunkSizeBytes ≤ i ∧
        i < c * server.chunkSizeBytes + server.chunkSizeBytes
    · simp [array_of_zero hpos hid hin.1 hin.2]
    · simp [hin]
  · next hid =>
    split at h
    · cases h
    next data hdata =>
    have hup : down = false := by
      cases down with
      | false => rfl
      | true => simp [client] at hdata
    subst hup
    obtain ⟨hlen, hbytes⟩ := readPhysicalChunkAt_ok hdata
    split at h
    · cases h
    cases h
    refine ⟨fun _ => rfl, ?_⟩
    have hfits : max start (c * server.chunkSizeBytes) - start + data.length ≤ out.length := by
      rw [hlen, hout, length_window]
      omega
    rw [take_of_length_le hlen.le, eq_window_iff, length_overlay hfits]
    refine ⟨by rw [hout, length_window], fun i hi => ?_⟩
    rw [getElem?_overlay hfits]
    split
    · next hin =>
      have hclo : c * server.chunkSizeBytes ≤ start + i := by omega
      have hchi : start + i < c * server.chunkSizeBytes + server.chunkSizeBytes := by omega
      rw [hbytes _ (by omega), if_pos ((hmem _).mpr (.inr ⟨hclo, hchi⟩))]
      simp only [array, (div_eq_iff_chunk hpos).mpr ⟨hclo, hchi⟩, if_neg hid]
      congr 4
      funext value
      congr 1
      omega
    · next hin =>
      rw [hout, getElem?_window, if_pos hi]
      simp only [hmem]
      have hout' : ¬(c * server.chunkSizeBytes ≤ start + i ∧
          start + i < c * server.chunkSizeBytes + server.chunkSizeBytes) := by omega
      simp [hout']

theorem client_readChunk_error {chunk : ResolvedChunkRead}
    (h : (server.client down).readChunk plan start n out chunk = .error (missing, err)) :
    missing = false := by
  have hanswer : ∀ id off len err, (server.client down).readPhysicalChunk id off len = .error err →
      isSBSNotFound err = false := by
    intro id off len err herr
    cases down with
    | true =>
      cases herr
      rfl
    | false =>
      simp only [client, Bool.false_eq_true, if_false, readPhysicalChunkAt,
        checkWindow, ChunkServer.readChunk] at herr
      split at herr
      · cases herr
        rfl
      split at herr
      · cases herr
        rfl
      split at herr
      · cases herr
      split at herr
      · cases herr
        rfl
      · cases herr
  unfold RemoteClient.readChunk at h
  dsimp only at h
  split at h
  · cases h
  split at h
  · cases h
  split at h
  · next err' hfailed =>
    cases h
    rw [hanswer _ _ _ _ hfailed, Bool.false_and]
  generalize chunk.encryption.isSome = encrypted at h
  cases encrypted with
  | true =>
    simp only [if_true] at h
    split at h
    · cases h
      rfl
    · cases h
      rfl
  | false =>
    simp only [Bool.false_eq_true, if_false] at h
    split at h
    · cases h
      rfl
    · cases h

theorem client_foldlM_error {chunks : List ResolvedChunkRead}
    (h : chunks.foldlM ((server.client down).readChunk plan start n) out = .error (missing, err)) :
    missing = false := by
  induction chunks generalizing out with
  | nil => cases h
  | cons chunk chunks ih =>
    rw [foldlM_cons] at h
    cases hread : (server.client down).readChunk plan start n out chunk with
    | error failure =>
      rw [hread] at h
      cases h
      exact client_readChunk_error hread
    | ok out' =>
      rw [hread, ok_bind] at h
      exact ih h

/-- The chunk calls to one server return its array, or fail without saying not found. -/
theorem readViaChunkAwareRPC_array (replicaID : String) (down : Bool)
    (hsize : server.chunkSizeBytes = g.chunkSizeBytes)
    (hcs : plan.chunkSizeBytes = g.chunkSizeBytes) {need : Nat → Prop}
    (hpages : PlanPages g entry need plan.allocationPages) (hn : 0 < n)
    (hneed : ∀ c, Hits g.chunkSizeBytes start n c → need c)
    (hplain : ∀ c, (entry c).encryption = none) :
    ∃ result, RemoteReplica.readViaChunkAwareRPC ⟨replicaID, server.client down⟩ plan start n =
        some result ∧
      (∀ data, result = .ok data → data = window (server.array entry) start n ∧
        ∀ c, Hits g.chunkSizeBytes start n c → (entry c).physicalChunkID ≠ 0 → down = false) ∧
      ∀ missing err, result = .error (missing, err) → missing = false := by
  have hpos := g.chunkSizeBytes_pos
  have hres := resolvedReadChunkMappings_eq hcs hpages hn hneed
  have hne : touchedChunks g.chunkSizeBytes start n ≠ [] := by
    have hhits := hits_div hpos (le_refl start) (Nat.lt_add_of_pos_right hn)
    exact ne_nil_of_mem ((mem_touchedChunks hpos hn).mpr hhits)
  unfold RemoteReplica.readViaChunkAwareRPC
  rw [hres]
  split
  · next heq => cases heq
  · next heq => exact (hne (map_eq_nil_iff.mp (some.inj heq))).elim
  next heq =>
  cases heq
  refine ⟨_, rfl, ?_, ?_⟩
  · intro data hdata
    rw [if_neg (by simp [client]), if_neg (by omega), foldlM_map] at hdata
    have hend := foldlM_of_ok (fun (done : List Nat) (out : List Byte) =>
      (∀ c ∈ done, (entry c).physicalChunkID ≠ 0 → down = false) ∧ out = window
        (fun i => if i / server.chunkSizeBytes ∈ done then server.array entry i else 0) start n)
      hdata ?_ ?_
    · refine ⟨?_, fun c hc => hend.1 c ((mem_touchedChunks hpos hn).mpr hc)⟩
      rw [hend.2]
      refine window_congr fun i hlo hhi => if_pos ?_
      rw [hsize, mem_touchedChunks hpos hn]
      exact hits_div hpos hlo hhi
    · simp [window_const]
    · intro done c rest out out' hl ⟨hup, hout⟩ hstep
      have hhits : Hits g.chunkSizeBytes start n c :=
        (mem_touchedChunks hpos hn).mp (by rw [hl]; simp)
      obtain ⟨hup', hout'⟩ := client_readChunk_array (hcs.trans hsize.symm) (hsize ▸ hpos) hn
        (hplain c) (hsize ▸ hhits) hout hstep
      refine ⟨fun c' hc' => ?_, hout'⟩
      rcases mem_append.mp hc' with hc' | hc'
      · exact hup c' hc'
      · rw [mem_singleton.mp hc']
        exact hup'
  · intro missing err herr
    rw [if_neg (by simp [client]), if_neg (by omega)] at herr
    exact client_foldlM_error herr

end Read

end Namrbd
