import Namrbd.Verify.PreparedCommit
import Namrbd.Replication.LocalReplica

/-!
# The payload step

What the local writer leaves in the replica stores. With stores that do not fail,
each chunk the plan resolves holds the window of the flat array the write leads
to, on every target; no other object changes.
-/

namespace Namrbd

open List Option PayloadStores Window

variable {stores stores' stores'' : PayloadStores} {r : String} {e k chunk extentID : Nat}
  {replicas : List String} {g : Geometry} {live planned : Nat → ChunkEntry} {req : WriteRequest}
  {p : ExtentWritePlan} {f : Nat → Byte}

section Stores

variable {r' : String} {value : List Byte}

theorem PayloadStores.isSome_set : ((stores.set r e k value) r').isSome = (stores r').isSome := by
  unfold set
  split
  · exact isSome_map
  · rfl

end Stores

/-- The stores differ in the objects of `keys` only, and no replica's store is lost. -/
structure ChangedOnly (keys : String → Nat → Nat → Prop) (stores stores' : PayloadStores) :
    Prop where
  isSome_eq : ∀ r, (stores' r).isSome = (stores r).isSome
  payload_eq : ∀ r e k, ¬keys r e k → stores'.payload r e k = stores.payload r e k

namespace ChangedOnly

variable {keys keys' : String → Nat → Nat → Prop}

theorem refl (keys : String → Nat → Nat → Prop) (stores : PayloadStores) :
    ChangedOnly keys stores stores :=
  ⟨fun _ => rfl, fun _ _ _ _ => rfl⟩

theorem trans (h : ChangedOnly keys stores stores') (h' : ChangedOnly keys stores' stores'') :
    ChangedOnly keys stores stores'' :=
  ⟨fun r => (h'.isSome_eq r).trans (h.isSome_eq r),
    fun r e k hk => (h'.payload_eq r e k hk).trans (h.payload_eq r e k hk)⟩

theorem mono (h : ChangedOnly keys stores stores') (hle : ∀ r e k, keys r e k → keys' r e k) :
    ChangedOnly keys' stores stores' :=
  ⟨h.isSome_eq, fun r e k hk => h.payload_eq r e k fun hkey => hk (hle r e k hkey)⟩

theorem set (value : List Byte) (hkey : keys r e k) :
    ChangedOnly keys stores (stores.set r e k value) := by
  refine ⟨fun _ => isSome_set, fun r' e' k' hne => ?_⟩
  unfold payload PayloadStores.set
  split
  · next hr =>
    cases stores r' with
    | none => rfl
    | some store =>
      refine if_neg ?_
      rintro ⟨rfl, rfl⟩
      exact hne (hr ▸ hkey)
  · rfl

end ChangedOnly

/-- Each replica of `replicas` got the object `content c` for every chunk `c` of
`chunks`, under the id `ids c` of the extent; nothing else changed. -/
structure Stored (ids : Nat → Nat) (content : Nat → List Byte) (extentID : Nat)
    (chunks : List Nat) (replicas : List String) (stores stores' : PayloadStores) : Prop where
  found : ∀ r ∈ replicas, ∀ c ∈ chunks, stores'.payload r extentID (ids c) = some (content c)
  frame : ChangedOnly (fun r e k => r ∈ replicas ∧ e = extentID ∧ ∃ c ∈ chunks, k = ids c)
    stores stores'

namespace Stored

variable {ids : Nat → Nat} {content : Nat → List Byte} {chunks : List Nat}

theorem nil_chunks : Stored ids content extentID [] replicas stores stores :=
  ⟨fun _ _ _ hc => (not_mem_nil hc).elim, .refl _ _⟩

theorem nil_replicas : Stored ids content extentID chunks [] stores stores :=
  ⟨fun _ hr => (not_mem_nil hr).elim, .refl _ _⟩

theorem cons_chunk {c : Nat} (h : Stored ids content extentID [c] replicas stores stores')
    (h' : Stored ids content extentID chunks replicas stores' stores'')
    (hne : ∀ c' ∈ chunks, ids c ≠ ids c') :
    Stored ids content extentID (c :: chunks) replicas stores stores'' := by
  refine ⟨fun r hr c' hc' => ?_, ?_⟩
  · rcases mem_cons.mp hc' with rfl | hc'
    · rw [h'.frame.payload_eq]
      · exact h.found r hr c' mem_cons_self
      · rintro ⟨-, -, c, hc, heq⟩
        exact hne c hc heq
    · exact h'.found r hr c' hc'
  · refine (h.frame.mono ?_).trans (h'.frame.mono ?_)
    · rintro r e k ⟨hr, he, c', hc', hk⟩
      exact ⟨hr, he, c', by simp_all, hk⟩
    · rintro r e k ⟨hr, he, c', hc', hk⟩
      exact ⟨hr, he, c', mem_cons_of_mem c hc', hk⟩

theorem cons_replica (h : Stored ids content extentID chunks [r] stores stores')
    (h' : Stored ids content extentID chunks replicas stores' stores'') :
    Stored ids content extentID chunks (r :: replicas) stores stores'' := by
  refine ⟨fun r' hr' c hc => ?_, ?_⟩
  · by_cases hmem : r' ∈ replicas
    · exact h'.found r' hmem c hc
    · rw [h'.frame.payload_eq _ _ _ fun hkey => hmem hkey.1]
      exact h.found r' (by simp_all) c hc
  · refine (h.frame.mono ?_).trans (h'.frame.mono ?_)
    · rintro r' e k ⟨hr, hkey⟩
      exact ⟨by simp_all, hkey⟩
    · rintro r' e k ⟨hr, hkey⟩
      exact ⟨mem_cons_of_mem r hr, hkey⟩

end Stored

/-! ## The chunks a plan resolves -/

/-- The chunks of an extent that a request writes an object for. -/
def writtenChunks (g : Geometry) (req : WriteRequest) (extent : ExtentMappingRecord) : List Nat :=
  (extentChunks g extent req.offsetBytes req.lengthBytes).filter fun chunk => !req.skips g chunk

/-- The id that the merge of a chunk starts from: for a copy on write the live one. -/
def sourceID (copyOnWrite : Bool) (live planned : Nat → ChunkEntry) (chunk : Nat) : Nat :=
  if copyOnWrite = true ∧ (live chunk).physicalChunkID ≠ 0 ∧
      (live chunk).physicalChunkID ≠ (planned chunk).physicalChunkID then
    (live chunk).physicalChunkID
  else (planned chunk).physicalChunkID

/-- A plan that has an id for every chunk the request writes in its extent. -/
structure ChunkPlan (g : Geometry) (planned : Nat → ChunkEntry) (req : WriteRequest)
    (p : ExtentWritePlan) : Prop where
  length_pos : 0 < req.lengthBytes
  aligned : p.extent.Aligned g.chunkSizeBytes
  overlaps : p.extent.overlaps req.offsetBytes req.lengthBytes = true
  mapped : WrittenMapped g req planned p.extent

theorem ChunkPlan.mem_writtenChunks (h : ChunkPlan g planned req p) :
    chunk ∈ writtenChunks g req p.extent ↔
      p.extent.Touched g.chunkSizeBytes req.offsetBytes req.lengthBytes chunk ∧
        req.skips g chunk = false := by
  rw [writtenChunks, mem_filter, mem_extentChunks h.aligned h.length_pos h.overlaps]
  simp

/-- A plan the writer can follow chunk by chunk: its pages show `planned`, and it copies from
the chunks of `live`. -/
structure WriterPlan (g : Geometry) (live planned : Nat → ChunkEntry) (req : WriteRequest)
    (p : ExtentWritePlan) : Prop extends ChunkPlan g planned req p where
  chunkSizeBytes_eq : p.chunkSizeBytes = g.chunkSizeBytes
  pages : PlanPages g planned
    (p.extent.Touched g.chunkSizeBytes req.offsetBytes req.lengthBytes) p.allocationPages
  base : p.copyOnWrite = true → PlanPages g live
    (p.extent.Touched g.chunkSizeBytes req.offsetBytes req.lengthBytes) p.baseAllocations
  plain : ∀ chunk, (planned chunk).encryption = none ∧ (live chunk).encryption = none

def resolvedChunk (copyOnWrite : Bool) (live planned : Nat → ChunkEntry) (chunk : Nat) :
    ResolvedChunkWrite :=
  { logicalChunk := chunk
    physicalChunkID := (planned chunk).physicalChunkID
    basePhysicalChunkID := if copyOnWrite then (live chunk).physicalChunkID else 0
    encryption := none
    baseEncryption := none }

theorem shouldSkip_eq (req : WriteRequest) {e : ExtentMappingRecord}
    (hin : e.HasChunk g.chunkSizeBytes chunk) :
    shouldSkipChunkPayloadWrite req.zeroSemantic (chunk * g.chunkSizeBytes)
        (chunk * g.chunkSizeBytes + g.chunkSizeBytes)
        (max (max req.offsetBytes e.logicalOffset) (chunk * g.chunkSizeBytes))
        (min (max req.offsetBytes e.logicalOffset +
            (min (req.offsetBytes + req.lengthBytes) e.endOffset -
              max req.offsetBytes e.logicalOffset))
          (chunk * g.chunkSizeBytes + g.chunkSizeBytes)) = req.skips g chunk := by
  have hcs := g.chunkSizeBytes_pos
  unfold ExtentMappingRecord.HasChunk at hin
  unfold shouldSkipChunkPayloadWrite WriteRequest.skips coversChunk
  rw [Bool.and_assoc]
  congr 1
  rw [Bool.eq_iff_iff]
  simp only [Bool.and_eq_true, beq_iff_eq, decide_eq_true_eq]
  omega

theorem ChunkPlan.resolvedWriteChunkMappings_planned (h : ChunkPlan g planned req p)
    (hsize : p.chunkSizeBytes = g.chunkSizeBytes) (hpages : PlanPages g planned
      (p.extent.Touched g.chunkSizeBytes req.offsetBytes req.lengthBytes) p.allocationPages) :
    resolvedWriteChunkMappings p req = some ((writtenChunks g req p.extent).map fun chunk =>
      { logicalChunk := chunk
        physicalChunkID := (planned chunk).physicalChunkID
        basePhysicalChunkID := (baseChunkAllocation p chunk).1
        encryption := (planned chunk).encryption
        baseEncryption := (baseChunkAllocation p chunk).2 }) := by
  obtain ⟨chunk, htouch⟩ := exists_touched h.aligned h.length_pos h.overlaps
  have hpos := overlap_pos h.aligned.length_pos h.length_pos h.overlaps
  rw [resolvedWriteChunkMappings, if_neg (not_or.mpr ⟨hsize ▸ g.chunkSizeBytes_pos.ne',
    hpages.ne_nil htouch⟩), overlapRange_of_overlaps h.overlaps]
  dsimp only
  rw [if_neg (by omega), hsize, Result.mapM_some (h := fun chunk =>
    if !req.skips g chunk then some (.mk chunk (planned chunk).physicalChunkID
      (baseChunkAllocation p chunk).1 (planned chunk).encryption (baseChunkAllocation p chunk).2)
    else none)]
  · rw [map_some, filterMap_map, writtenChunks, extentChunks]
    exact congrArg some (filterMap_eq_map_filter fun _ _ => rfl)
  · intro c hc
    have htouch := (mem_extentChunks h.aligned h.length_pos h.overlaps).mp hc
    unfold resolveWriteChunk
    rw [hpages.logicalChunkAllocationRecord_eq htouch, hsize]
    dsimp only
    rw [shouldSkip_eq req htouch.2]
    by_cases hskip : req.skips g c = true
    · rw [hskip]; rfl
    · have hid := h.mapped c htouch (by simpa using hskip)
      simp [hskip, hid, ChunkEntry.allocation]

namespace WriterPlan

theorem resolvedWriteChunkMappings_eq (h : WriterPlan g live planned req p) :
    resolvedWriteChunkMappings p req = some ((writtenChunks g req p.extent).map
      (resolvedChunk p.copyOnWrite live planned)) := by
  rw [h.toChunkPlan.resolvedWriteChunkMappings_planned h.chunkSizeBytes_eq h.pages]
  refine congrArg some (map_congr_left fun c hc => ?_)
  have htouch := (h.mem_writtenChunks.mp hc).1
  have hbase : baseChunkAllocation p c =
      (if p.copyOnWrite then (live c).physicalChunkID else 0, none) := by
    unfold baseChunkAllocation
    by_cases hcow : p.copyOnWrite = true
    · have hne : p.baseAllocations.isEmpty = false := by
        simpa using (h.base hcow).ne_nil htouch
      rw [hcow, hne, (h.base hcow).logicalChunkAllocationRecord_eq htouch]
      by_cases hid : (live c).physicalChunkID = 0
      · simp [ChunkEntry.allocation, hid]
      · simp [ChunkEntry.allocation, hid, (h.plain c).2]
    · simp [hcow]
  rw [hbase, (h.plain c).1]
  rfl

end WriterPlan

/-! ## Merging -/

/-- The object of `id`, or zeros, agrees with `f` on the chunk outside
`[start, start + n)`. -/
def MergesTo (g : Geometry) (f : Nat → Byte) (start n : Nat) (stores : PayloadStores)
    (replicaID : String) (extentID id chunk : Nat) : Prop :=
  ∃ h, (stores.payload replicaID extentID id).getD (List.replicate g.chunkSizeBytes 0) =
      Window.window h (chunk * g.chunkSizeBytes) g.chunkSizeBytes ∧
    ∀ i, chunk * g.chunkSizeBytes ≤ i → i < chunk * g.chunkSizeBytes + g.chunkSizeBytes →
      ¬(start ≤ i ∧ i < start + n) → h i = f i

theorem loadChunkForMerge_ok {start n : Nat} {replicaID : String} {id : Nat} (full : Bool)
    (hmerge : MergesTo g f start n stores replicaID extentID id chunk)
    (hfull : full = true → start ≤ chunk * g.chunkSizeBytes ∧
      chunk * g.chunkSizeBytes + g.chunkSizeBytes ≤ start + n) :
    ∃ buf, loadChunkForMerge .reliable stores replicaID extentID id g.chunkSizeBytes none full =
        .ok buf ∧ buf.length = g.chunkSizeBytes ∧
      ∀ i, chunk * g.chunkSizeBytes ≤ i → i < chunk * g.chunkSizeBytes + g.chunkSizeBytes →
        ¬(start ≤ i ∧ i < start + n) → buf[i - chunk * g.chunkSizeBytes]? = some (f i) := by
  obtain ⟨h, hpay, hout⟩ := hmerge
  cases full with
  | true =>
    refine ⟨_, rfl, length_replicate, fun i hlo hhi hnot => ?_⟩
    have := hfull rfl
    omega
  | false =>
    -- both a stored object and the zeros of a missing one are the window of `h`
    refine ⟨window h (chunk * g.chunkSizeBytes) g.chunkSizeBytes, ?_,
      length_window .., fun i hlo hhi hnot => ?_⟩
    · cases hget : stores.payload replicaID extentID id with
      | none =>
        rw [hget, getD_none] at hpay
        simp [loadChunkForMerge, getPayload, StoreFaults.reliable, hget, hpay]
      | some value =>
        rw [hget, getD_some] at hpay
        have hlen : value.length = g.chunkSizeBytes := by rw [hpay, length_window]
        have hload : loadChunkForMerge .reliable stores replicaID extentID id g.chunkSizeBytes none
            false = .ok (overlay (replicate g.chunkSizeBytes 0) 0
              (value.take g.chunkSizeBytes)) := by
          simp [loadChunkForMerge, getPayload, StoreFaults.reliable, hget]
        rw [hload, take_of_length_le hlen.le, overlay_whole (by simpa using hlen), hpay]
    · rw [getElem?_window, if_pos (by omega), Nat.add_sub_cancel' hlo, hout i hlo hhi hnot]

namespace WriterPlan

variable {payload : List Byte}

/-- Where the part of a request in the plan's extent starts, and how long it is. -/
abbrev start (req : WriteRequest) (p : ExtentWritePlan) : Nat :=
  max req.offsetBytes p.extent.logicalOffset

@[inherit_doc start]
abbrev length (req : WriteRequest) (p : ExtentWritePlan) : Nat :=
  min (req.offsetBytes + req.lengthBytes) p.extent.endOffset - start req p

/-- The source of a written chunk shows `f` outside the payload. -/
abbrev Ready (g : Geometry) (live planned : Nat → ChunkEntry) (req : WriteRequest)
    (p : ExtentWritePlan) (f : Nat → Byte) (stores : PayloadStores) (r : String) (chunk : Nat) :
    Prop :=
  MergesTo g f (start req p) (length req p) stores r p.extent.extentID
    (sourceID p.copyOnWrite live planned chunk) chunk

theorem writeChunk_ok (h : WriterPlan g live planned req p) (hlen : payload.length = length req p)
    (hpay : ∀ i, start req p ≤ i → i < start req p + length req p →
      payload[i - start req p]? = some (f i)) (hchunk : chunk ∈ writtenChunks g req p.extent)
    (hready : Ready g live planned req p f stores r chunk) :
    writeChunk .reliable r p req.zeroSemantic (start req p) (length req p) payload stores
        (resolvedChunk p.copyOnWrite live planned chunk) =
      .ok (stores.set r p.extent.extentID (planned chunk).physicalChunkID
        (window f (chunk * g.chunkSizeBytes) g.chunkSizeBytes)) := by
  obtain ⟨htouch, hskip⟩ := h.mem_writtenChunks.mp hchunk
  have hhits : Hits g.chunkSizeBytes (start req p) (length req p) chunk :=
    (hits_overlap_iff g.chunkSizeBytes_pos h.aligned h.length_pos h.overlaps).mpr htouch
  have hskip' := (shouldSkip_eq req htouch.2).trans hskip
  have hpos : 0 < length req p :=
    Nat.sub_pos_of_lt (overlap_pos h.aligned.length_pos h.length_pos h.overlaps)
  obtain ⟨hhi, hlo⟩ := hhits
  have hcs := g.chunkSizeBytes_pos
  -- the base the writer chooses is the source of the chunk
  have hsource : (if (resolvedChunk p.copyOnWrite live planned chunk).basePhysicalChunkID ≠ 0 ∧
      (resolvedChunk p.copyOnWrite live planned chunk).basePhysicalChunkID ≠
        (resolvedChunk p.copyOnWrite live planned chunk).physicalChunkID then
        ((resolvedChunk p.copyOnWrite live planned chunk).basePhysicalChunkID,
          (resolvedChunk p.copyOnWrite live planned chunk).baseEncryption)
      else ((resolvedChunk p.copyOnWrite live planned chunk).physicalChunkID,
        (resolvedChunk p.copyOnWrite live planned chunk).encryption)) =
      (sourceID p.copyOnWrite live planned chunk, none) := by
    unfold sourceID resolvedChunk
    cases p.copyOnWrite <;> simp
    split <;> rfl
  obtain ⟨buf, hload, hbuf, hout⟩ := loadChunkForMerge_ok
    (max (start req p) (chunk * g.chunkSizeBytes) == chunk * g.chunkSizeBytes &&
      min (start req p + length req p) (chunk * g.chunkSizeBytes + g.chunkSizeBytes) ==
        chunk * g.chunkSizeBytes + g.chunkSizeBytes) hready (by
      simp only [Bool.and_eq_true, beq_iff_eq]; omega)
  unfold writeChunk
  rw [hsource]
  dsimp only [resolvedChunk]
  rw [h.chunkSizeBytes_eq, if_neg (by omega), hskip', if_neg Bool.false_ne_true, hload,
    Result.ok_bind, if_neg (by rw [hlen, hbuf]; omega),
    overlay_slice_eq_window hbuf hlen hlo hhi hpay hout]
  rfl

/-- No written chunk is stored under the id of another one, nor under the id that another
one starts from. -/
def Separate (g : Geometry) (live planned : Nat → ChunkEntry) (req : WriteRequest)
    (p : ExtentWritePlan) : Prop :=
  ∀ c ∈ writtenChunks g req p.extent, ∀ c' ∈ writtenChunks g req p.extent, c ≠ c' →
    (planned c).physicalChunkID ≠ sourceID p.copyOnWrite live planned c' ∧
      (planned c).physicalChunkID ≠ (planned c').physicalChunkID

abbrev content (g : Geometry) (f : Nat → Byte) (chunk : Nat) : List Byte :=
  Window.window f (chunk * g.chunkSizeBytes) g.chunkSizeBytes

abbrev ids (planned : Nat → ChunkEntry) (chunk : Nat) : Nat := (planned chunk).physicalChunkID

theorem Ready.of_stored (hsep : Separate g live planned req p) {chunks : List Nat}
    (hsub : chunks ⊆ writtenChunks g req p.extent)
    (hstored : Stored (ids planned) (content g f) p.extent.extentID chunks replicas stores stores')
    (hchunk : chunk ∈ writtenChunks g req p.extent)
    (hready : Ready g live planned req p f stores r chunk) :
    Ready g live planned req p f stores' r chunk := by
  by_cases hkey : r ∈ replicas ∧ ∃ c ∈ chunks,
      sourceID p.copyOnWrite live planned chunk = ids planned c
  · obtain ⟨hr, c, hc, hid⟩ := hkey
    obtain rfl : c = chunk := by
      by_contra hne
      exact (hsep c (hsub hc) chunk hchunk hne).1 hid.symm
    refine ⟨f, ?_, fun _ _ _ _ => rfl⟩
    rw [hid, hstored.found r hr c hc]
    rfl
  · obtain ⟨h, hpay, hout⟩ := hready
    refine ⟨h, ?_, hout⟩
    rw [hstored.frame.payload_eq _ _ _ fun hk => hkey ⟨hk.1, hk.2.2⟩]
    exact hpay

theorem writeChunks_ok (h : WriterPlan g live planned req p) (hsep : Separate g live planned req p)
    (hlen : payload.length = length req p)
    (hpay : ∀ i, start req p ≤ i → i < start req p + length req p →
      payload[i - start req p]? = some (f i)) {chunks : List Nat}
    (hsub : chunks ⊆ writtenChunks g req p.extent) (hnodup : chunks.Nodup)
    (hstore : (stores r).isSome) (hready : ∀ c ∈ chunks, Ready g live planned req p f stores r c) :
    ∃ stores', writeChunks .reliable r p req.zeroSemantic (start req p) (length req p) payload
        (chunks.map (resolvedChunk p.copyOnWrite live planned)) stores = (.ok (), stores') ∧
      Stored (ids planned) (content g f) p.extent.extentID chunks [r] stores stores' := by
  induction chunks generalizing stores with
  | nil => exact ⟨stores, rfl, .nil_chunks⟩
  | cons c chunks ih =>
    obtain ⟨hnotMem, hnodup⟩ := nodup_cons.mp hnodup
    have hc : c ∈ writtenChunks g req p.extent := hsub mem_cons_self
    have hsub' : chunks ⊆ writtenChunks g req p.extent := fun c' hc' =>
      hsub (mem_cons_of_mem c hc')
    have hone : Stored (ids planned) (content g f) p.extent.extentID [c] [r] stores
        (stores.set r p.extent.extentID (ids planned c) (content g f c)) := by
      refine ⟨?_, .set _ ⟨mem_singleton_self r, rfl, c, mem_singleton_self c, rfl⟩⟩
      intro r' hr' c' hc'
      rw [mem_singleton.mp hr', mem_singleton.mp hc']
      obtain ⟨store, hstore⟩ := isSome_iff_exists.mp hstore
      simp [PayloadStores.payload, PayloadStores.set, hstore]
    have hready' : ∀ c' ∈ chunks, Ready g live planned req p f
        (stores.set r p.extent.extentID (ids planned c) (content g f c)) r c' :=
      fun c' hc' => (hready c' (mem_cons_of_mem c hc')).of_stored hsep
        (by simpa using hc) hone (hsub' hc')
    obtain ⟨stores', hwrite, hrest⟩ := ih hsub' hnodup (isSome_set.trans hstore) hready'
    refine ⟨stores', ?_, hone.cons_chunk hrest fun c' hc' =>
      (hsep c hc c' (hsub' hc') (fun heq => hnotMem (heq ▸ hc'))).2⟩
    rw [map_cons, writeChunks, h.writeChunk_ok hlen hpay hc (hready c mem_cons_self)]
    exact hwrite

/-- A payload fits when it has the bytes of `f`, unless there is nothing to write. -/
def Fits (g : Geometry) (req : WriteRequest) (p : ExtentWritePlan) (f : Nat → Byte)
    (payload : List Byte) : Prop :=
  writtenChunks g req p.extent ≠ [] → payload.length = length req p ∧
    ∀ i, start req p ≤ i → i < start req p + length req p →
      payload[i - start req p]? = some (f i)

section

variable (h : WriterPlan g live planned req p)

include h

section

variable (hsep : Separate g live planned req p) (hfits : Fits g req p f payload)

include hsep hfits

theorem writeViaAllocationChunks_ok (hstore : (stores r).isSome)
    (hready : ∀ c ∈ writtenChunks g req p.extent, Ready g live planned req p f stores r c) :
    ∃ stores', writeViaAllocationChunks .reliable stores r p req (start req p) (length req p)
        payload = (true, stores') ∧
      Stored (ids planned) (content g f) p.extent.extentID (writtenChunks g req p.extent) [r]
        stores stores' := by
  unfold writeViaAllocationChunks
  rw [h.resolvedWriteChunkMappings_eq]
  by_cases hnil : writtenChunks g req p.extent = []
  · rw [hnil]
    exact ⟨stores, rfl, .nil_chunks⟩
  obtain ⟨hlen, hpay⟩ := hfits hnil
  have hnodup : (writtenChunks g req p.extent).Nodup := (nodup_extentChunks _).filter _
  obtain ⟨stores', hwrite, hstored⟩ := h.writeChunks_ok hsep hlen hpay
    (List.Subset.refl _) hnodup hstore hready
  refine ⟨stores', ?_, hstored⟩
  split
  · next heq => cases heq
  · next heq => exact (hnil (map_eq_nil_iff.mp (some.inj heq))).elim
  · next chunks _ heq =>
    cases heq
    rw [if_neg (not_not.mpr hlen), hwrite]

theorem writeTargets_ok {targets : List ReplicaTarget} {acked : List String}
    (hready : ∀ r ∈ targets.map (·.replicaID), ∀ c ∈ writtenChunks g req p.extent,
      Ready g live planned req p f stores r c)
    (hwrite : writeTargets .reliable p req (start req p) (length req p) payload targets stores =
      (.ok acked, stores')) :
    Stored (ids planned) (content g f) p.extent.extentID (writtenChunks g req p.extent)
      (targets.map (·.replicaID)) stores stores' := by
  induction targets generalizing stores acked with
  | nil =>
    cases hwrite
    exact .nil_replicas
  | cons target targets ih =>
    rw [writeTargets] at hwrite
    split at hwrite
    · cases hwrite
    next stores1 hone =>
    unfold writeTarget at hone
    split at hone
    · cases hone
    next store hstore =>
    obtain ⟨stores'', hvia, hstored⟩ := h.writeViaAllocationChunks_ok hsep hfits
      (isSome_iff_exists.mpr ⟨store, hstore⟩) (hready target.replicaID mem_cons_self)
    rw [hvia] at hone
    cases hone
    have hready' : ∀ r ∈ targets.map (·.replicaID), ∀ c ∈ writtenChunks g req p.extent,
        Ready g live planned req p f stores1 r c := fun r hr c hc =>
      (hready r (mem_cons_of_mem _ hr) c hc).of_stored hsep (List.Subset.refl _) hstored hc
    split at hwrite
    · cases hwrite
    next acked' stores2 hrest =>
    cases hwrite
    exact hstored.cons_replica (ih hready' hrest)

end

theorem payloadForExtent_eq
    (hpay : payloadForExtent p req = .ok payload) (hne : writtenChunks g req p.extent ≠ []) :
    start req p - req.offsetBytes + length req p ≤ req.data.length ∧
      payload = slice req.data (start req p - req.offsetBytes) (length req p) := by
  unfold payloadForExtent at hpay
  rw [overlapRange_of_overlaps h.overlaps, Result.ok_bind] at hpay
  dsimp only at hpay
  have homit : canOmitZeroSemanticPayload p req = false := by
    unfold canOmitZeroSemanticPayload
    rw [h.resolvedWriteChunkMappings_eq, Bool.and_eq_false_iff]
    right
    simpa using hne
  rw [homit, if_neg Bool.false_ne_true] at hpay
  split at hpay
  · cases hpay
  · next hshort =>
    cases hpay
    exact ⟨Nat.not_lt.mp hshort, rfl⟩

theorem payloadForExtent_fits
    (hdata : ∀ i b, i < req.lengthBytes → req.data[i]? = some b → f (req.offsetBytes + i) = b)
    (hpay : payloadForExtent p req = .ok payload) : Fits g req p f payload := by
  intro hne
  obtain ⟨hshort, rfl⟩ := h.payloadForExtent_eq hpay hne
  have hpos := overlap_pos h.aligned.length_pos h.length_pos h.overlaps
  refine ⟨length_slice hshort, fun i hlo hhi => ?_⟩
  unfold length at hshort hhi ⊢
  unfold start at hlo hhi hshort ⊢
  have hlt : i - req.offsetBytes < req.data.length := by omega
  have hget := getElem?_eq_getElem hlt
  rw [getElem?_slice, if_pos (by omega),
    show max req.offsetBytes p.extent.logicalOffset - req.offsetBytes +
      (i - max req.offsetBytes p.extent.logicalOffset) = i - req.offsetBytes by omega, hget,
    ← hdata (i - req.offsetBytes) _ (by omega) hget]
  congr 2
  omega

end

end WriterPlan

end Namrbd
