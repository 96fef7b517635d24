import Namrbd.Replication.RemoteReplica
import Namrbd.Verify.PayloadRead

/-!
# What the reader of remote replicas returns

The reader returns the bytes of the first target that answers the reads of all
chunks. When no target does it returns an error, unless one of them said that a
chunk is not found: then the range reads as zeros, whatever was written there
and whichever replicas hold it (`readExtent_written_iff`).
-/

namespace Namrbd

open List ResolvedChunkRead Result Window

section Chunks

variable (plan : ExtentReadPlan) (start n : Nat) (chunk : ResolvedChunkRead)

abbrev ResolvedChunkRead.readPos : Nat := max start (chunk.logicalChunk * plan.chunkSizeBytes)

abbrev ResolvedChunkRead.readLen : Nat :=
  min (start + n) (chunk.logicalChunk * plan.chunkSizeBytes + plan.chunkSizeBytes) -
    chunk.readPos plan start

abbrev RemoteClient.chunkAnswer (client : RemoteClient) : Except ClientErr (List Byte) :=
  client.readPhysicalChunk chunk.physicalChunkID
    (chunk.readPos plan start - chunk.logicalChunk * plan.chunkSizeBytes)
    (chunk.readLen plan start n)

/-- The client answers with enough bytes. -/
def RemoteClient.Answered (client : RemoteClient) (data : List Byte) : Prop :=
  chunk.encryption = none ∧ client.chunkAnswer plan start n chunk = .ok data ∧
    chunk.readLen plan start n ≤ data.length

/-- The client answers that there is no such chunk. -/
def RemoteClient.NotFound (client : RemoteClient) : Prop :=
  chunk.encryption = none ∧
    ∃ message, client.chunkAnswer plan start n chunk = .error (.notFound message)

end Chunks

section Replica

variable (plan : ExtentReadPlan) (start n : Nat) (chunks : List ResolvedChunkRead)
  (client : RemoteClient)

/-- The client answers the reads of all chunks, with the bytes of `g`. -/
def RemoteClient.Serves (g : Nat → Byte) : Prop :=
  client.physicalChunks = true ∧ ∀ chunk ∈ chunks, ∃ data, client.Answered plan start n chunk data ∧
    data.take (chunk.readLen plan start n) =
      Window.window g (chunk.readPos plan start) (chunk.readLen plan start n)

/-- The first chunk that the client does not answer is not found. -/
def RemoteClient.Misses : Prop :=
  client.physicalChunks = true ∧ ∃ before chunk after, chunks = before ++ chunk :: after ∧
    (∀ chunk ∈ before, ∃ data, client.Answered plan start n chunk data) ∧
      client.NotFound plan start n chunk

end Replica

section OneReplica

variable {plan : ExtentReadPlan} {start n : Nat} {chunks : List ResolvedChunkRead}
  {client : RemoteClient} {chunk : ResolvedChunkRead}

structure DataChunks (plan : ExtentReadPlan) (start n : Nat) (chunks : List ResolvedChunkRead) :
    Prop where
  resolved : resolvedReadChunkMappings plan start n = some chunks
  data : ∀ chunk ∈ chunks, chunk.zero = false

namespace DataChunks

section

variable (h : DataChunks plan start n chunks)

include h

theorem pos : plan.chunkSizeBytes ≠ 0 ∧ plan.allocationPages ≠ [] ∧ n ≠ 0 := by
  have hres := h.resolved
  unfold resolvedReadChunkMappings at hres
  split at hres
  · cases hres
  · next hcond => simpa [not_or] using hcond

theorem map_logicalChunk :
    chunks.map (·.logicalChunk) = touchedChunks plan.chunkSizeBytes start n := by
  have hres := h.resolved
  unfold resolvedReadChunkMappings at hres
  split at hres
  · cases hres
  refine map_eq_of_forall₂ ((mapM_eq_some.mp hres).imp ?_)
  intro c chunk hchunk
  obtain ⟨allocation, -, rfl⟩ := Option.map_eq_some_iff.mp hchunk
  rfl

theorem hits (hchunk : chunk ∈ chunks) : Hits plan.chunkSizeBytes start n chunk.logicalChunk := by
  obtain ⟨hcs, -, hn⟩ := h.pos
  rw [← mem_touchedChunks (Nat.pos_of_ne_zero hcs) (Nat.pos_of_ne_zero hn), ← h.map_logicalChunk]
  exact mem_map_of_mem hchunk

theorem nodup : (chunks.map (·.logicalChunk)).Nodup := by
  rw [h.map_logicalChunk]
  exact nodup_range'

theorem ne_nil : chunks ≠ [] := by
  obtain ⟨hcs, -, hn⟩ := h.pos
  rintro rfl
  have hhits := hits_div (Nat.pos_of_ne_zero hcs) (le_refl start)
    (Nat.lt_add_of_pos_right (Nat.pos_of_ne_zero hn))
  rw [← mem_touchedChunks (Nat.pos_of_ne_zero hcs) (Nat.pos_of_ne_zero hn), ← h.map_logicalChunk]
    at hhits
  exact absurd hhits not_mem_nil

theorem not_zeroAllocation : readRangeSatisfiedByZeroAllocation plan start n = false := by
  obtain ⟨hcs, hpages, hn⟩ := h.pos
  obtain ⟨chunk, hmem⟩ := exists_mem_of_ne_nil _ h.ne_nil
  have hres := h.resolved
  unfold resolvedReadChunkMappings at hres
  rw [if_neg (by simp [hcs, hpages, hn])] at hres
  obtain ⟨c, hc, hchunk⟩ := exists_of_mem_right (mapM_eq_some.mp hres) hmem
  obtain ⟨allocation, halloc, rfl⟩ := Option.map_eq_some_iff.mp hchunk
  unfold readRangeSatisfiedByZeroAllocation
  rw [if_neg (by simp [hcs, hpages, hn]), all_eq_false]
  refine ⟨c, hc, ?_⟩
  rw [halloc]
  simpa using h.data _ hmem

end

end DataChunks

theorem readPos_lt (hhits : Hits plan.chunkSizeBytes start n chunk.logicalChunk)
    (hcs : plan.chunkSizeBytes ≠ 0) (hn : n ≠ 0) :
    chunk.readPos plan start <
      min (start + n) (chunk.logicalChunk * plan.chunkSizeBytes + plan.chunkSizeBytes) := by
  unfold Hits at hhits
  simp only [readPos]
  omega

/-- A chunk is copied, or its error is that of the client. -/
theorem readChunk_cases (client : RemoteClient) (hdata : chunk.zero = false)
    (hpos : chunk.readPos plan start <
      min (start + n) (chunk.logicalChunk * plan.chunkSizeBytes + plan.chunkSizeBytes))
    (out : List Byte) :
    (∃ data, client.Answered plan start n chunk data ∧ client.readChunk plan start n out chunk =
        .ok (overlay out (chunk.readPos plan start - start)
          (data.take (chunk.readLen plan start n)))) ∨
      ∃ missing err, client.readChunk plan start n out chunk = .error (missing, err) ∧
        (∀ data, ¬ client.Answered plan start n chunk data) ∧
          (missing = true ↔ client.NotFound plan start n chunk) := by
  unfold RemoteClient.readChunk
  rw [if_neg (Nat.not_le.mpr hpos), hdata, if_neg Bool.false_ne_true]
  cases henc : chunk.encryption with
  | some header =>
    -- an encrypted chunk is never answered
    have hnot : ∀ data, ¬ client.Answered plan start n chunk data := fun data hans => by
      simpa [henc] using hans.1
    have hnotFound : ¬ client.NotFound plan start n chunk := fun hans => by
      simpa [henc] using hans.1
    simp only [Option.isSome_some, if_true, Option.isNone_some, Bool.and_false]
    right
    cases client.readPhysicalChunk chunk.physicalChunkID 0 plan.chunkSizeBytes with
    | error err => exact ⟨_, _, rfl, hnot, by simpa using hnotFound⟩
    | ok data =>
      dsimp only
      split
      · exact ⟨_, _, rfl, hnot, by simpa using hnotFound⟩
      · exact ⟨_, _, rfl, hnot, by simpa using hnotFound⟩
  | none =>
    simp only [Option.isSome_none, Bool.false_eq_true, if_false, Option.isNone_none, Bool.and_true]
    cases hanswer : client.chunkAnswer plan start n chunk with
    | error err =>
      have hcall := hanswer
      simp only [RemoteClient.chunkAnswer, readLen, readPos] at hcall
      rw [hcall]
      right
      refine ⟨isSBSNotFound err, err, rfl, fun data hans => ?_, ?_⟩
      · rw [hans.2.1] at hanswer
        cases hanswer
      · cases err with
        | notFound message => simp [isSBSNotFound, RemoteClient.NotFound, henc, hanswer]
        | other message => simp [isSBSNotFound, RemoteClient.NotFound, hanswer]
    | ok data =>
      have hcall := hanswer
      simp only [RemoteClient.chunkAnswer, readLen, readPos] at hcall
      rw [hcall]
      have hnotFound : ¬ client.NotFound plan start n chunk := by
        rintro ⟨-, message, hmessage⟩
        rw [hmessage] at hanswer
        cases hanswer
      dsimp only
      split
      · next hshort =>
        refine .inr ⟨_, _, rfl, fun data' hans => ?_, by simpa using hnotFound⟩
        obtain ⟨-, hdata', hlen⟩ := hans
        obtain rfl : data = data' := Except.ok.inj (hanswer.symm.trans hdata')
        exact absurd hshort (Nat.not_lt.mpr hlen)
      · next hlong => exact .inl ⟨data, ⟨henc, hanswer, Nat.not_lt.mp hlong⟩, rfl⟩

def Copied (plan : ExtentReadPlan) (start n : Nat) (client : RemoteClient)
    (finished : List ResolvedChunkRead) (out : List Byte) : Prop :=
  out.length = n ∧ ∀ chunk ∈ finished, ∃ data, client.Answered plan start n chunk data ∧
    ∀ i < chunk.readLen plan start n, out[chunk.readPos plan start - start + i]? = data[i]?

variable (h : DataChunks plan start n chunks)

include h

theorem Copied.overlay {finished rest : List ResolvedChunkRead}
    (hchunks : chunks = finished ++ chunk :: rest) {out data : List Byte}
    (hcopied : Copied plan start n client finished out)
    (hdata : client.Answered plan start n chunk data) :
    Copied plan start n client (finished ++ [chunk])
      (overlay out (chunk.readPos plan start - start)
        (data.take (chunk.readLen plan start n))) := by
  obtain ⟨hcs, -, hn⟩ := h.pos
  have hhits : ∀ chunk' ∈ chunks, chunk'.readPos plan start <
      min (start + n) (chunk'.logicalChunk * plan.chunkSizeBytes + plan.chunkSizeBytes) :=
    fun chunk' hmem => readPos_lt (h.hits hmem) hcs hn
  have hpos := hhits chunk (by simp [hchunks])
  have htake : (data.take (chunk.readLen plan start n)).length = chunk.readLen plan start n := by
    rw [length_take]
    exact Nat.min_eq_left hdata.2.2
  have hfits : chunk.readPos plan start - start + (data.take (chunk.readLen plan start n)).length ≤
      out.length := by
    rw [htake, hcopied.1]
    simp only [readLen, readPos] at hpos ⊢
    omega
  refine ⟨(length_overlay hfits).trans hcopied.1, fun chunk' hmem => ?_⟩
  rcases mem_append.mp hmem with hmem | hmem
  · -- an earlier chunk is not overwritten
    obtain ⟨data', hdata', hget⟩ := hcopied.2 chunk' hmem
    refine ⟨data', hdata', fun i hi => ?_⟩
    rw [getElem?_overlay hfits, htake, if_neg, hget i hi]
    rintro ⟨hlo, hhi⟩
    have hne : chunk'.logicalChunk ≠ chunk.logicalChunk := by
      have hnodup := h.nodup
      rw [hchunks, map_append, map_cons] at hnodup
      exact (nodup_append.mp hnodup).2.2 _ (mem_map_of_mem hmem) _ mem_cons_self
    have hpos' := hhits chunk' (by simp [hchunks, hmem])
    simp only [readLen, readPos] at hpos hpos' hlo hhi hi
    have hpos := Nat.pos_of_ne_zero hcs
    refine hne (((div_eq_iff_chunk hpos
      (i := max start (chunk'.logicalChunk * plan.chunkSizeBytes) + i)).mpr ?_).symm.trans
        ((div_eq_iff_chunk hpos).mpr ?_))
    all_goals omega
  · rw [mem_singleton.mp hmem]
    refine ⟨data, hdata, fun i hi => ?_⟩
    rw [getElem?_overlay hfits, htake, if_pos ⟨Nat.le_add_right _ _, by omega⟩,
      Nat.add_sub_cancel_left, getElem?_take, if_pos hi]

theorem Copied.serves {out : List Byte}
    (hcopied : Copied plan start n client chunks out) (hphys : client.physicalChunks = true) :
    ∃ g, client.Serves plan start n chunks g ∧ out = window g start n := by
  obtain ⟨hlen, hcopied⟩ := hcopied
  obtain ⟨hcs, -, hn⟩ := h.pos
  refine ⟨fun i => out.getD (i - start) 0, ⟨hphys, fun chunk hmem => ?_⟩, ?_⟩
  · obtain ⟨data, hdata, hget⟩ := hcopied chunk hmem
    have hpos := readPos_lt (h.hits hmem) hcs hn
    refine ⟨data, hdata, eq_window_iff.mpr ⟨?_, fun i hi => ?_⟩⟩
    · rw [length_take]
      exact Nat.min_eq_left hdata.2.2
    have hdi : i < data.length := lt_of_lt_of_le hi hdata.2.2
    rw [getElem?_take, if_pos hi, getD_eq_getElem?_getD,
      show chunk.readPos plan start + i - start = chunk.readPos plan start - start + i by
        simp only [readPos]; omega, hget i hi, getElem?_eq_getElem hdi]
    rfl
  · rw [eq_window_iff]
    refine ⟨hlen, fun i hi => ?_⟩
    rw [Nat.add_sub_cancel_left, getD_eq_getElem?_getD, getElem?_eq_getElem (by omega)]
    rfl

/-- The loop over the chunks: `rest` is still to come. -/
theorem foldlM_readChunk_cases :
    ∀ rest finished out, chunks = finished ++ rest → Copied plan start n client finished out →
      (∃ out', rest.foldlM (client.readChunk plan start n) out = .ok out' ∧
        Copied plan start n client chunks out') ∨
      ∃ missing err, rest.foldlM (client.readChunk plan start n) out = .error (missing, err) ∧
        (∃ chunk ∈ chunks, ∀ data, ¬ client.Answered plan start n chunk data) ∧
        (missing = true ↔ ∃ before chunk after, chunks = before ++ chunk :: after ∧
          (∀ chunk ∈ before, ∃ data, client.Answered plan start n chunk data) ∧
            client.NotFound plan start n chunk) := by
  obtain ⟨hcs, -, hn⟩ := h.pos
  intro rest
  induction rest with
  | nil =>
    intro finished out hchunks hcopied
    rw [append_nil] at hchunks
    exact .inl ⟨out, rfl, hchunks ▸ hcopied⟩
  | cons chunk rest ih =>
    intro finished out hchunks hcopied
    have hmem : chunk ∈ chunks := by simp [hchunks]
    rw [foldlM_cons]
    have hpos := readPos_lt (h.hits hmem) hcs hn
    rcases readChunk_cases client (h.data chunk hmem) hpos out with
      ⟨data, hdata, hread⟩ | ⟨missing, err, hread, hnot, hmiss⟩
    · rw [hread, ok_bind]
      exact ih (finished ++ [chunk]) _ (by simp [hchunks]) (hcopied.overlay h hchunks hdata)
    rw [hread, error_bind]
    refine .inr ⟨missing, err, rfl, ⟨chunk, hmem, hnot⟩, hmiss.trans ⟨fun hfound => ?_, ?_⟩⟩
    · refine ⟨finished, chunk, rest, hchunks, fun chunk' hmem' => ?_, hfound⟩
      obtain ⟨data, hdata, -⟩ := hcopied.2 chunk' hmem'
      exact ⟨data, hdata⟩
    -- the first chunk without an answer is this one
    rintro ⟨before, chunk', after, hchunks', hbefore, hfound⟩
    have heq : chunk = chunk' := by
      refine eq_of_first_not (hchunks.symm.trans hchunks') ?_ (by simpa using hnot) hbefore ?_
      · intro x hx
        obtain ⟨data, hdata, -⟩ := hcopied.2 x hx
        exact ⟨data, hdata⟩
      · obtain ⟨-, message, hmessage⟩ := hfound
        rintro ⟨data, -, hdata, -⟩
        rw [hmessage] at hdata
        cases hdata
    exact heq ▸ hfound

theorem readViaChunkAwareRPC_cases (replica : RemoteReplica) :
    (∃ g, replica.client.Serves plan start n chunks g ∧
        replica.readViaChunkAwareRPC plan start n = some (.ok (window g start n))) ∨
      ∃ missing err, replica.readViaChunkAwareRPC plan start n = some (.error (missing, err)) ∧
        (∀ g, ¬ replica.client.Serves plan start n chunks g) ∧
          (missing = true ↔ replica.client.Misses plan start n chunks) := by
  obtain ⟨hcs, -, hn⟩ := h.pos
  unfold RemoteReplica.readViaChunkAwareRPC
  rw [h.resolved]
  cases chunks with
  | nil => exact absurd rfl h.ne_nil
  | cons chunk rest =>
    dsimp only
    by_cases hphys : replica.client.physicalChunks = true
    · rw [hphys, if_neg (by simp), if_neg hcs]
      have hstart : Copied plan start n replica.client [] (replicate n 0) :=
        ⟨length_replicate, fun _ hmem => absurd hmem not_mem_nil⟩
      rcases foldlM_readChunk_cases h _ [] _ rfl hstart with
        ⟨out, hread, hcopied⟩ | ⟨missing, err, hread, ⟨chunk', hmem, hnot⟩, hmiss⟩
      · obtain ⟨g, hserves, rfl⟩ := hcopied.serves h hphys
        exact .inl ⟨g, hserves, congrArg some hread⟩
      refine .inr ⟨missing, err, congrArg some hread, fun g hserves => ?_, ?_⟩
      · obtain ⟨data, hdata, -⟩ := hserves.2 chunk' hmem
        exact hnot data hdata
      · exact hmiss.trans ⟨fun hfound => ⟨hphys, hfound⟩, fun hfound => hfound.2⟩
    · rw [if_pos (by simpa using hphys)]
      refine .inr ⟨_, _, rfl, fun g hserves => hphys hserves.1, ?_⟩
      simp [RemoteClient.Misses, hphys]

end OneReplica

section Targets

variable {r : RemoteReplicaReader} {plan : ExtentReadPlan} {start n : Nat}
  {chunks : List ResolvedChunkRead} {f : Nat → Byte}

def RemoteReplicaReader.Serves (r : RemoteReplicaReader) (plan : ExtentReadPlan) (start n : Nat)
    (chunks : List ResolvedChunkRead) (target : ReplicaTarget) (g : Nat → Byte) : Prop :=
  ∃ replica, remoteReplicaForTarget r.replicas target = some replica ∧
    replica.client.Serves plan start n chunks g

def RemoteReplicaReader.Misses (r : RemoteReplicaReader) (plan : ExtentReadPlan) (start n : Nat)
    (chunks : List ResolvedChunkRead) (target : ReplicaTarget) : Prop :=
  ∃ replica, remoteReplicaForTarget r.replicas target = some replica ∧
    replica.client.Misses plan start n chunks

/-- The first target that answers has the bytes of `f`. -/
def RemoteReplicaReader.FirstServes (r : RemoteReplicaReader) (plan : ExtentReadPlan) (start n : Nat)
    (chunks : List ResolvedChunkRead) (targets : List ReplicaTarget) (f : Nat → Byte) : Prop :=
  ∀ before target after g, targets = before ++ target :: after →
    (∀ t ∈ before, ∀ g, ¬ r.Serves plan start n chunks t g) →
      r.Serves plan start n chunks target g → ∀ i, start ≤ i → i < start + n → g i = f i

variable {target : ReplicaTarget}

theorem readTargets_cons_cases (h : DataChunks plan start n chunks) (target : ReplicaTarget)
    (targets : List ReplicaTarget) (sawMissing : Bool) (lastErr : Option ClientErr) :
    (∃ g, r.Serves plan start n chunks target g ∧
        r.readTargets plan start n (target :: targets) sawMissing lastErr =
          .ok (window g start n, target.replicaID)) ∨
      ∃ missing lastErr', r.readTargets plan start n (target :: targets) sawMissing lastErr =
          r.readTargets plan start n targets (sawMissing || missing) lastErr' ∧
        (∀ g, ¬ r.Serves plan start n chunks target g) ∧
          (missing = true ↔ r.Misses plan start n chunks target) := by
  unfold RemoteReplicaReader.Serves RemoteReplicaReader.Misses
  cases hrepl : remoteReplicaForTarget r.replicas target with
  | none =>
    refine .inr ⟨false, ?lastErr, ?read, by simp, by simp⟩
    case read => rw [RemoteReplicaReader.readTargets, hrepl, Bool.or_false]
  | some replica =>
    rcases readViaChunkAwareRPC_cases h replica with
      ⟨g, hserves, hread⟩ | ⟨missing, err, hread, hnot, hmiss⟩
    · refine .inl ⟨g, ⟨replica, rfl, hserves⟩, ?_⟩
      rw [RemoteReplicaReader.readTargets, hrepl]
      simp only [hread]
    · refine .inr ⟨missing, some err, ?_, by simpa using hnot, by simpa using hmiss⟩
      rw [RemoteReplicaReader.readTargets, hrepl]
      simp only [hread]

theorem RemoteReplicaReader.Serves.eq (h : DataChunks plan start n chunks) {g g' : Nat → Byte}
    (hg : r.Serves plan start n chunks target g) (hg' : r.Serves plan start n chunks target g')
    {i : Nat} (hlo : start ≤ i) (hhi : i < start + n) : g i = g' i := by
  obtain ⟨hcs, -, hn⟩ := h.pos
  obtain ⟨replica, hrepl, -, hg⟩ := hg
  obtain ⟨replica', hrepl', -, hg'⟩ := hg'
  obtain rfl : replica = replica' := Option.some.inj (hrepl.symm.trans hrepl')
  have hchunk := (div_eq_iff_chunk (Nat.pos_of_ne_zero hcs) (i := i)).mp rfl
  have hhits := hits_div (Nat.pos_of_ne_zero hcs) hlo hhi
  rw [← mem_touchedChunks (Nat.pos_of_ne_zero hcs) (Nat.pos_of_ne_zero hn), ← h.map_logicalChunk]
    at hhits
  obtain ⟨chunk, hmem, hlogical⟩ := mem_map.mp hhits
  obtain ⟨data, ⟨-, hdata, -⟩, hwindow⟩ := hg chunk hmem
  obtain ⟨data', ⟨-, hdata', -⟩, hwindow'⟩ := hg' chunk hmem
  obtain rfl : data = data' := Except.ok.inj (hdata.symm.trans hdata')
  have hsame := window_eq_window_iff.mp (hwindow.symm.trans hwindow')
  rw [← hlogical] at hchunk
  refine hsame i ?_ ?_
  all_goals
    simp only [readPos, readLen]
    omega

theorem firstServes_cons_iff {targets : List ReplicaTarget}
    (hnot : ∀ g, ¬ r.Serves plan start n chunks target g) :
    r.FirstServes plan start n chunks (target :: targets) f ↔
      r.FirstServes plan start n chunks targets f := by
  constructor
  · intro h before target' after g hsplit hbefore
    refine h (target :: before) target' after g (by rw [hsplit]; rfl) ?_
    exact forall_mem_cons.mpr ⟨hnot, hbefore⟩
  intro h before target' after g hsplit hbefore hserves
  cases before with
  | nil =>
    obtain ⟨rfl, -⟩ := cons.inj hsplit
    exact absurd hserves (hnot g)
  | cons t before =>
    obtain ⟨rfl, htail⟩ := cons.inj hsplit
    exact h before target' after g htail (forall_mem_cons.mp hbefore).2 hserves

/-- What the targets in turn answer, and when it is the array. -/
theorem readTargets_written_iff (h : DataChunks plan start n chunks) (targets : List ReplicaTarget)
    (sawMissing : Bool) (lastErr : Option ClientErr) :
    (∀ data replicaID, r.readTargets plan start n targets sawMissing lastErr = .ok (data, replicaID) →
        data = window f start n) ↔
      r.FirstServes plan start n chunks targets f ∧
        ((∀ target ∈ targets, ∀ g, ¬ r.Serves plan start n chunks target g) →
          (sawMissing = true ∨ ∃ target ∈ targets, r.Misses plan start n chunks target) →
            ∀ i, start ≤ i → i < start + n → f i = 0) := by
  induction targets generalizing sawMissing lastErr with
  | nil =>
    unfold RemoteReplicaReader.readTargets
    cases sawMissing with
    | false => simp [RemoteReplicaReader.FirstServes]
    | true =>
      have hzeros : (replicate n (0 : Byte) = window f start n) ↔
          ∀ i, start ≤ i → i < start + n → f i = 0 := by
        rw [← window_const 0 start n, window_eq_window_iff]
        exact ⟨fun heq i hlo hhi => (heq i hlo hhi).symm, fun heq i hlo hhi => (heq i hlo hhi).symm⟩
      simpa [RemoteReplicaReader.FirstServes] using hzeros
  | cons target targets ih =>
    rcases readTargets_cons_cases h target targets sawMissing lastErr with
      ⟨g, hserves, hread⟩ | ⟨missing, lastErr', hread, hnot, hmiss⟩
    · have hfirst : r.FirstServes plan start n chunks (target :: targets) f ↔
          window g start n = window f start n := by
        rw [window_eq_window_iff]
        refine ⟨fun hfirst => hfirst [] target targets g rfl (by simp) hserves, ?_⟩
        intro heq before target' after g' hsplit hbefore hserves' i hlo hhi
        cases before with
        | nil =>
          obtain ⟨rfl, -⟩ := cons.inj hsplit
          rw [hserves'.eq h hserves hlo hhi, heq i hlo hhi]
        | cons t before =>
          obtain ⟨rfl, -⟩ := cons.inj hsplit
          exact absurd hserves (hbefore target mem_cons_self g)
      rw [hread, hfirst]
      constructor
      · intro hdata
        exact ⟨hdata _ _ rfl, fun hnone => absurd hserves (hnone target mem_cons_self g)⟩
      · rintro ⟨heq, -⟩ data replicaID hdata
        cases hdata
        exact heq
    · rw [hread, ih, firstServes_cons_iff hnot]
      refine and_congr_right fun _ => ?_
      simp only [forall_mem_cons, exists_mem_cons_iff, Bool.or_eq_true, hmiss, or_assoc]
      exact ⟨fun hrest hnone => hrest hnone.2, fun hrest hnone => hrest ⟨hnot, hnone⟩⟩

/-- What is read of an extent with data is the array `f`, whatever the targets answer, exactly if
the first target that answers has the bytes of `f`, and `f` is zero where none answers and one
misses the payload. -/
theorem readExtent_written_iff {req : ReadRequest}
    (hoverlap : overlapRange plan.extent req.offsetBytes req.lengthBytes = .ok (start, n))
    (h : DataChunks plan start n chunks) (f : Nat → Byte) :
    (∀ data replicaID, r.readExtent plan req = .ok (data, replicaID) →
        data = Window.window f start n) ↔
      r.FirstServes plan start n chunks (plan.preferred :: plan.fallbacks) f ∧
        ((∀ target ∈ plan.preferred :: plan.fallbacks, ∀ g, ¬ r.Serves plan start n chunks target g) →
          (∃ target ∈ plan.preferred :: plan.fallbacks, r.Misses plan start n chunks target) →
            ∀ i, start ≤ i → i < start + n → f i = 0) := by
  unfold RemoteReplicaReader.readExtent
  simp only [hoverlap, h.not_zeroAllocation, Bool.false_eq_true, if_false]
  rw [readTargets_written_iff h]
  simp

end Targets

namespace ThreeReplicas

def written (i : Nat) : Byte := UInt8.ofNat (i + 1)

def page : AllocationPageRecord :=
  { pageNo := 0, pageBytes := 4, chunkSizeBytes := 4, revision := 1
    extents := [{ logicalChunkStart := 0, chunkCount := 1, kind := .data, physicalChunkStart := 7 }] }

def target (replicaID : String) : ReplicaTarget := ⟨"", replicaID, .secondary, ""⟩

def plan : ExtentReadPlan where
  extent := ⟨1, 0, 4, 0, "p1", 1⟩
  replicaSetID := "rs1"
  preferred := target "r1"
  fallbacks := [target "r2", target "r3"]
  allocationPages := [{ page := page, rangeStartChunk := 0, rangeEndChunk := 1 }]
  chunkSizeBytes := 4

def req : ReadRequest := ⟨0, 4, 4, 4⟩

def server : ChunkServer where
  chunkSizeBytes := 4
  chunks id := if id = 7 then some (Window.window written 0 4) else none
  data _ := 0

def unknownVolume : RemoteClient where
  physicalChunks := true
  readPhysicalChunk _ _ _ := .error (.notFound "volume not found")
  read _ _ := .error (.notFound "volume not found")

def reader (down : Bool) : RemoteReplicaReader where
  replicas
    | "r1" => some ⟨"r1", server.client down⟩
    | "r2" => some ⟨"r2", server.client down⟩
    | "r3" => some ⟨"r3", unknownVolume⟩
    | _ => none

theorem dataChunks : DataChunks plan 0 4 [⟨0, 7, false, none⟩] := ⟨by decide, by decide⟩

/-- While the two replicas that hold the write can not be reached, it reads as zeros. -/
theorem written_data_reads_as_zeros : DataChunks plan 0 4 [⟨0, 7, false, none⟩] ∧
      server.chunks 7 = some (Window.window written 0 4) ∧
      (reader true).readExtent plan req = .ok ([0, 0, 0, 0], "") ∧
        Window.window written 0 4 ≠ [0, 0, 0, 0] :=
  ⟨dataChunks, rfl, by decide, by decide⟩

theorem serves : (reader false).Serves plan 0 4 [⟨0, 7, false, none⟩] (target "r1") written := by
  refine ⟨⟨"r1", server.client false⟩, rfl, rfl, ?_⟩
  intro chunk hchunk
  rw [mem_singleton.mp hchunk]
  exact ⟨window written 0 4, ⟨rfl, rfl, by decide⟩, rfl⟩

/-- The first target answers with the chunk that was written. -/
theorem written_data_is_read :
    overlapRange plan.extent req.offsetBytes req.lengthBytes = .ok (0, 4) ∧
      DataChunks plan 0 4 [⟨0, 7, false, none⟩] ∧
      ∀ data replicaID, (reader false).readExtent plan req = .ok (data, replicaID) →
        data = Window.window written 0 4 := by
  have hov : overlapRange plan.extent req.offsetBytes req.lengthBytes = .ok (0, 4) := rfl
  refine ⟨hov, dataChunks, (readExtent_written_iff hov dataChunks written).mpr ⟨?_, ?_⟩⟩
  · intro before target' after g hsplit hbefore hserves i hlo hhi
    cases before with
    | nil =>
      obtain ⟨rfl, -⟩ := cons.inj hsplit
      exact hserves.eq dataChunks serves hlo hhi
    | cons t before =>
      obtain ⟨rfl, -⟩ := cons.inj hsplit
      exact absurd serves (hbefore _ mem_cons_self written)
  · intro hnone
    exact absurd serves (hnone _ mem_cons_self written)

end ThreeReplicas

end Namrbd
