import Namrbd.Verify.FreshChunks
import Namrbd.Replication.WriteService

/-!
# Reading

What the reader returns. When every object it may find shows the flat array, a
read that succeeds returns the array's window, whichever store calls fail.
-/

namespace Namrbd

open ExtentMappingRecord List Result Window Option

variable {c n stop : Nat} {f : Nat → Byte} {g : Geometry} {faults : StoreFaults} {data : List Byte}
  {req : ReadRequest} {es : List ExtentMappingRecord}

/-- The stores show the flat array `f` through the chunk map `entry`, for the chunks of an
extent that satisfy `need`: a chunk without an id is zero, and no replica has other
bytes for a chunk with an id. -/
structure ShowsFlat (g : Geometry) (entry : Nat → ChunkEntry) (f : Nat → Byte)
    (stores : PayloadStores) (extentID : Nat) (need : Nat → Prop) : Prop where
  zero : ∀ c, need c → (entry c).physicalChunkID = 0 →
    ∀ i, c * g.chunkSizeBytes ≤ i → i < c * g.chunkSizeBytes + g.chunkSizeBytes → f i = 0
  stored : ∀ c, need c → (entry c).physicalChunkID ≠ 0 → ∀ r value,
    stores.payload r extentID (entry c).physicalChunkID = some value →
      value = Window.window f (c * g.chunkSizeBytes) g.chunkSizeBytes

variable {cs i : Nat}

theorem div_eq_iff_chunk (hcs : 0 < cs) : i / cs = c ↔ c * cs ≤ i ∧ i < c * cs + cs := by
  rw [Nat.div_eq_iff hcs]
  omega

theorem hits_div {start : Nat} (hcs : 0 < cs) (hlo : start ≤ i) (hhi : i < start + n) :
    Hits cs start n (i / cs) := by
  have := (div_eq_iff_chunk hcs (i := i)).mp rfl
  unfold Hits
  omega

section Extent

variable {entry : Nat → ChunkEntry} {stores : PayloadStores} {p : ExtentReadPlan} {start : Nat}
  {r : String}

/-- The chunk of a read plan under this map. -/
def readChunkOf (entry : Nat → ChunkEntry) (chunk : Nat) : ResolvedChunkRead :=
  { logicalChunk := chunk
    physicalChunkID := (entry chunk).physicalChunkID
    zero := (entry chunk).physicalChunkID == 0
    encryption := (entry chunk).encryption }

variable {need : Nat → Prop}

/-- A chunk that is read puts the bytes of `f` in their place. -/
theorem readChunk_shows (hcs : p.chunkSizeBytes = g.chunkSizeBytes)
    (hshows : ShowsFlat g entry f stores p.extent.extentID need) {done : List Nat} (hc : need c)
    {out out' : List Byte}
    (hout : out = window (fun i => if i / g.chunkSizeBytes ∈ done then f i else 0) start n)
    (h : readChunk faults stores r p start n out (readChunkOf entry c) = .ok out') :
    out' = window (fun i => if i / g.chunkSizeBytes ∈ done ++ [c] then f i else 0) start n := by
  have hpos := g.chunkSizeBytes_pos
  have hmem : ∀ i, i / g.chunkSizeBytes ∈ done ++ [c] ↔ i / g.chunkSizeBytes ∈ done ∨
      (c * g.chunkSizeBytes ≤ i ∧ i < c * g.chunkSizeBytes + g.chunkSizeBytes) := by
    intro i
    rw [mem_append, mem_singleton, div_eq_iff_chunk hpos]
  -- when the chunk adds nothing to the output
  have hkeep : (∀ i, start ≤ i → i < start + n → c * g.chunkSizeBytes ≤ i →
      i < c * g.chunkSizeBytes + g.chunkSizeBytes → f i = 0) → out' = out →
      out' = window (fun i => if i / g.chunkSizeBytes ∈ done ++ [c] then f i else 0) start n := by
    rintro hzero rfl
    rw [hout]
    refine window_congr fun i hlo hhi => ?_
    simp only [hmem i]
    by_cases hin : c * g.chunkSizeBytes ≤ i ∧ i < c * g.chunkSizeBytes + g.chunkSizeBytes
    · rw [hzero i hlo hhi hin.1 hin.2, ite_self, ite_self]
    · simp [hin]
  unfold readChunk at h
  simp only [readChunkOf, hcs, beq_iff_eq] at h
  split at h
  · next hempty =>
    cases h
    refine hkeep (fun i hlo hhi hlo' hhi' => ?_) rfl
    omega
  · next hcopy =>
    split at h
    · next hid =>
      cases h
      exact hkeep (fun i _ _ => hshows.zero c hc hid i) rfl
    next hid =>
    obtain ⟨got, hgot, h⟩ := bind_eq_ok.mp h
    unfold getPayload at hgot
    split at hgot
    · cases hgot
    cases hgot
    cases hvalue : stores.payload r p.extent.extentID (entry c).physicalChunkID with
    | none =>
      simp only [hvalue] at h
      obtain ⟨-, h⟩ := throwIf_eq_ok.mp h
      cases h
    | some value =>
      have hshown := hshows.stored c hc hid r value hvalue
      -- an encrypted chunk is not read
      simp only [hvalue] at h
      obtain ⟨-, h⟩ := throwIf_eq_ok.mp h
      split at h
      · cases h
      cases h
      rw [hshown, slice_window f (by omega), hout,
        ← window_patch_overlay _ (by rw [length_window]; omega)]
      refine window_congr fun i hlo hhi => ?_
      rw [show start + (max start (c * g.chunkSizeBytes) - start) =
        c * g.chunkSizeBytes + (max start (c * g.chunkSizeBytes) - c * g.chunkSizeBytes) by
          omega, patch_window]
      simp only [hmem i]
      by_cases hin : c * g.chunkSizeBytes ≤ i ∧ i < c * g.chunkSizeBytes + g.chunkSizeBytes
      · rw [if_pos (by omega), if_pos (.inr hin)]
      · rw [if_neg (by omega)]
        simp [hin]

section

variable (hcs : p.chunkSizeBytes = g.chunkSizeBytes)
  (hpages : PlanPages g entry need p.allocationPages) (hn : 0 < n)
  (hneed : ∀ c, Hits g.chunkSizeBytes start n c → need c)

include hcs hpages hn hneed

theorem resolvedReadChunkMappings_eq :
    resolvedReadChunkMappings p start n =
      some ((touchedChunks g.chunkSizeBytes start n).map (readChunkOf entry)) := by
  have hpos := g.chunkSizeBytes_pos
  have hhits : ∀ c ∈ touchedChunks g.chunkSizeBytes start n, need c := fun c hc =>
    hneed c ((mem_touchedChunks hpos hn).mp hc)
  have hfirst := hneed _ (hits_div hpos le_rfl (Nat.lt_add_of_pos_right hn))
  unfold resolvedReadChunkMappings
  rw [hcs, if_neg (by simp [hpages.ne_nil hfirst]; omega)]
  refine mapM_some fun c hc => ?_
  rw [hpages.logicalChunkAllocationRecord_eq (hhits c hc)]
  rfl

variable (hshows : ShowsFlat g entry f stores p.extent.extentID need)

include hshows

theorem readViaAllocationChunks_shows (faults : StoreFaults) (r : String) :
    ∃ result, readViaAllocationChunks faults stores r p start n = some result ∧
      ∀ data, result = .ok data → data = window f start n := by
  have hpos := g.chunkSizeBytes_pos
  have hne : touchedChunks g.chunkSizeBytes start n ≠ [] := by
    unfold touchedChunks
    have := Nat.div_le_div_right (c := g.chunkSizeBytes) (show start ≤ start + n - 1 by omega)
    simp [range'_eq_nil_iff]
    omega
  unfold readViaAllocationChunks
  rw [resolvedReadChunkMappings_eq hcs hpages hn hneed]
  split
  · next heq => cases heq
  · next heq => exact (hne (map_eq_nil_iff.mp (some.inj heq))).elim
  next heq =>
  cases heq
  refine ⟨_, rfl, fun data hdata => ?_⟩
  rw [foldlM_map] at hdata
  have hend := foldlM_of_ok (fun (done : List Nat) (out : List Byte) =>
    out = window (fun i => if i / g.chunkSizeBytes ∈ done then f i else 0) start n)
    hdata ?_ ?_
  · rw [hend]
    refine window_congr fun i hlo hhi => if_pos ?_
    rw [mem_touchedChunks hpos hn, Hits]
    have := Nat.div_mul_le_self i g.chunkSizeBytes
    have := Nat.lt_div_mul_add (a := i) hpos
    omega
  · simp only [not_mem_nil, if_false, window_const]
  · intro done c rest out out' hl hout hstep
    have hhits : Hits g.chunkSizeBytes start n c :=
      (mem_touchedChunks hpos hn).mp (by rw [hl]; simp)
    exact readChunk_shows hcs hshows (hneed c hhits) hout hstep

theorem readTargets_shows {targets : List ReplicaTarget} {lastErr : Option Err}
    (h : readTargets faults stores p start n targets false lastErr = .ok data) :
    data = window f start n := by
  induction targets generalizing lastErr with
  | nil => cases h
  | cons target targets ih =>
    rw [readTargets] at h
    split at h
    · exact ih h
    obtain ⟨result, hresult, hdata⟩ := readViaAllocationChunks_shows hcs hpages hn hneed hshows
      faults target.replicaID
    rw [hresult] at h
    cases result with
    | ok data' =>
      cases h
      exact hdata _ rfl
    | error err => exact ih h

end

theorem readExtent_shows (hcs : p.chunkSizeBytes = g.chunkSizeBytes)
    (hext : 0 < p.extent.lengthBytes) (hlen : 0 < req.lengthBytes)
    (hov : p.extent.overlaps req.offsetBytes req.lengthBytes = true) (hpages : PlanPages g entry
      (p.extent.Meets g.chunkSizeBytes req.offsetBytes req.lengthBytes) p.allocationPages)
    (hshows : ShowsFlat g entry f stores p.extent.extentID
      (p.extent.Meets g.chunkSizeBytes req.offsetBytes req.lengthBytes))
    (h : readExtent faults stores p req = .ok data) :
    data = window f (max req.offsetBytes p.extent.logicalOffset)
      (min (req.offsetBytes + req.lengthBytes) p.extent.endOffset -
        max req.offsetBytes p.extent.logicalOffset) := by
  have hpos := g.chunkSizeBytes_pos
  have hn := Nat.sub_pos_of_lt (overlap_pos hext hlen hov)
  unfold readExtent at h
  rw [overlapRange_of_overlaps hov, ok_bind] at h
  dsimp only at h
  split at h
  · -- every chunk of the range is zero
    next hzero =>
    cases h
    symm
    rw [← window_const (0 : Byte) (max req.offsetBytes p.extent.logicalOffset)]
    refine window_congr fun i hlo hhi => ?_
    have hhits := hits_div hpos hlo hhi
    have hmeets := (hits_overlap_iff_meets hext hlen hov).mp hhits
    unfold readRangeSatisfiedByZeroAllocation at hzero
    split at hzero
    · cases hzero
    rw [hcs] at hzero
    have hz := all_eq_true.mp hzero _ ((mem_touchedChunks hpos hn).mpr hhits)
    rw [hpages.logicalChunkAllocationRecord_eq hmeets] at hz
    obtain ⟨hle, hlt⟩ := (div_eq_iff_chunk hpos).mp (rfl : i / g.chunkSizeBytes = _)
    exact hshows.zero _ hmeets (by simpa [ChunkEntry.allocation] using hz) i hle hlt
  · exact readTargets_shows hcs hpages hn (fun _ => (hits_overlap_iff_meets hext hlen hov).mp)
      hshows h

end Extent

/-! ## A whole read -/

/-- The part of a range that lies in an extent. -/
def IsPart (P : Nat → Byte → Prop) (off len : Nat) (e : ExtentMappingRecord) (part : List Byte) :
    Prop :=
  part.length = min (off + len) e.endOffset - max off e.logicalOffset ∧
    ∀ k b, part[k]? = some b → P (max off e.logicalOffset + k) b

/-- The parts of consecutive extents make up the range. -/
theorem flatten_overlapped {P : Nat → Byte → Prop} {off len start : Nat}
    (h : Runs.Tiles (·.logicalOffset) (·.lengthBytes) start es stop) {parts : List (List Byte)}
    (hparts : Forall₂ (IsPart P off len) (es.filter fun e => e.overlaps off len) parts) :
    parts.flatten.length = min (off + len) stop - max off start ∧
      ∀ k b, parts.flatten[k]? = some b → P (max off start + k) b := by
  induction es generalizing start parts with
  | nil =>
    obtain rfl : start = stop := h
    cases hparts
    refine ⟨?_, by simp⟩
    rw [flatten_nil, length_nil]
    omega
  | cons e es ih =>
    obtain ⟨rfl, hpos, hrest⟩ := h
    have hle := hrest.le
    dsimp only at hpos hle
    rw [filter_cons] at hparts
    split at hparts
    · next hov =>
      have hov := of_decide_eq_true hov
      obtain ⟨part, rest, ⟨hlen, hpart⟩, hrests, rfl⟩ := forall₂_cons_left_iff.mp hparts
      obtain ⟨hrestLen, hrestP⟩ := ih hrest hrests
      dsimp only at hrestLen hrestP ⊢
      unfold endOffset at hov hlen
      refine ⟨?_, fun k b hk => ?_⟩
      · rw [flatten_cons, length_append, hrestLen, hlen]
        omega
      rw [flatten_cons, getElem?_append] at hk
      split at hk
      · exact hpart k b hk
      have hin := List.getElem?_eq_some_iff.mp hk
      convert hrestP _ b hk using 1
      obtain ⟨hlt, -⟩ := hin
      omega
    · next hov =>
      have hov : ¬_ := fun h => hov (decide_eq_true h)
      unfold endOffset at hov
      obtain ⟨hrestLen, hrestP⟩ := ih hrest hparts
      dsimp only at hrestLen hrestP ⊢
      refine ⟨by omega, fun k b hk => ?_⟩
      obtain ⟨hlt, -⟩ := List.getElem?_eq_some_iff.mp hk
      convert hrestP k b hk using 1
      omega

/-- The bytes of the range that lie in the extent. -/
def ExtentMappingRecord.part (f : Nat → Byte) (off len : Nat) (e : ExtentMappingRecord) :
    List Byte :=
  window f (max off e.logicalOffset) (min (off + len) e.endOffset - max off e.logicalOffset)

theorem flatMap_part (f : Nat → Byte) (off len : Nat) {start : Nat}
    (h : Runs.Tiles (·.logicalOffset) (·.lengthBytes) start es stop) :
    (es.filter fun e => e.overlaps off len).flatMap (part f off len) =
      window f (max off start) (min (off + len) stop - max off start) := by
  have hparts : Forall₂ (IsPart (fun i b => b = f i) off len)
      (es.filter fun e => e.overlaps off len)
      ((es.filter fun e => e.overlaps off len).map (part f off len)) := by
    refine forall₂_map_right_iff.mpr (forall₂_same.mpr fun e _ => ?_)
    refine ⟨length_window _ _ _, fun k b hk => ?_⟩
    rw [part, getElem?_window] at hk
    simp only [ite_none_right_eq_some, some.injEq] at hk
    exact hk.2.symm
  obtain ⟨hlength, hbytes⟩ := flatten_overlapped h hparts
  refine eq_window_iff.mpr ⟨hlength, fun i hi => ?_⟩
  rw [flatMap_def, getElem?_eq_getElem (hlength ▸ hi), some.injEq]
  exact hbytes i _ (getElem?_eq_getElem (hlength ▸ hi))

theorem flatMap_part_zero (f : Nat → Byte) (off : Nat) (es : List ExtentMappingRecord) :
    es.flatMap (part f off 0) = [] := by
  refine flatMap_eq_nil_iff.mpr fun e _ => length_eq_zero_iff.mp ?_
  rw [part, length_window]
  omega

/-- The objects of each extent that meets a range show, on the bytes of the extent, the flat
array. A chunk at the border of two extents has an object in each. -/
structure ShowsRange (g : Geometry) (c : Cluster) (f : Nat → Byte) (off len : Nat) : Prop where
  pagesWF : c.repository.PagesWF g
  positive : ∀ e ∈ c.repository.overlapped off len, 0 < e.lengthBytes
  shows : ∀ e ∈ c.repository.overlapped off len, ∃ shown,
    (∀ i, e.logicalOffset ≤ i → i < e.endOffset → shown i = f i) ∧
    ShowsFlat g (c.repository.liveEntry g) shown c.stores e.extentID
      (e.Meets g.chunkSizeBytes off len)

theorem ShowsRange.read_eq {c : Cluster} (hrange : ShowsRange g c f req.offsetBytes req.lengthBytes)
    (hpage : req.pageBytes = g.pageBytes) (hchunk : req.chunkSizeBytes = g.chunkSizeBytes)
    (h : read faults c req = .ok data) :
    data = (c.repository.overlapped req.offsetBytes req.lengthBytes).flatMap
      (part f req.offsetBytes req.lengthBytes) := by
  obtain ⟨hwf, hpos, hshows⟩ := hrange
  obtain ⟨plan, hplan, h⟩ := bind_eq_ok.mp h
  rw [hpage, hchunk] at hplan
  rcases Nat.eq_zero_or_pos req.lengthBytes with hlen | hlen
  · rw [plan_empty hlen hplan] at h
    cases h
    rw [hlen, flatMap_part_zero]
    rfl
  obtain ⟨hexts, heach⟩ := planRead_ok hwf hpos hlen hplan
  obtain ⟨parts, hparts, h⟩ := bind_eq_ok.mp h
  cases h
  rw [flatMap_def, ← hexts, List.map_map]
  refine congrArg flatten (map_eq_of_forall₂ (List.Forall₂.flip ?_)).symm
  have hrel := (forall₂_and_left _ _).mpr ⟨fun p hp => hp, mapM_eq_ok.mp hparts⟩
  refine hrel.imp fun p bytes ⟨hp, hread⟩ => Eq.symm ?_
  have hmem : p.extent ∈ c.repository.overlapped req.offsetBytes req.lengthBytes :=
    hexts ▸ mem_map_of_mem hp
  obtain ⟨shown, hsame, hflat⟩ := hshows p.extent hmem
  rw [readExtent_shows (heach p hp).chunkSizeBytes_eq (hpos _ hmem) hlen (mem_overlapped.mp hmem).2
    (heach p hp).pages hflat hread]
  exact window_congr fun i hlo hhi => hsame i (by omega) (by omega)

end Namrbd
