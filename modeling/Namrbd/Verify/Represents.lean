import Namrbd.Verify.PayloadStep
import Namrbd.Verify.PayloadRead
import Namrbd.Verify.CommitModes

/-!
# A volume as a flat array

`Represents` says that metadata and stores stand for a flat byte array. A write in
flight has ids reserved for the chunks it writes (`Reserved`): a chunk is
overwritten in place, or gets an id that nothing is mapped to. The payload step
changes the array where chunks are overwritten in place, the commit where they are
remapped.
-/

namespace Namrbd

open ExtentMappingRecord List Repository Result Window

variable {live planned : Nat → ChunkEntry} {g : Geometry} {size c i : Nat} {e : ExtentMappingRecord}
  {f : Nat → Byte} {r key : String} {m m' : Repository} {stores stores' : PayloadStores}
  {req : WriteRequest} {plans : List ExtentWritePlan} {p : ExtentWritePlan} {touched : List Nat}

/-- The volume's contents are `f`. Ids of the live map come from the sequence and are not
shared within an extent; a replica that writes do not go to holds nothing. -/
structure Represents (g : Geometry) (size : Nat) (m : Repository) (stores : PayloadStores)
    (f : Nat → Byte) : Prop where
  layout : Layout g size m.extents
  pagesWF : m.PagesWF g
  plain : ∀ c, (m.liveEntry g c).encryption = none
  lt_next : ∀ c, (m.liveEntry g c).physicalChunkID < m.getNextChunkID
  inj : ∀ e ∈ m.extents, ∀ c c', e.HasChunk g.chunkSizeBytes c → e.HasChunk g.chunkSizeBytes c' →
    (m.liveEntry g c).physicalChunkID ≠ 0 →
    (m.liveEntry g c).physicalChunkID = (m.liveEntry g c').physicalChunkID → c = c'
  zero : ∀ e ∈ m.extents, ∀ c, e.HasChunk g.chunkSizeBytes c →
    (m.liveEntry g c).physicalChunkID = 0 →
    ∀ i, c * g.chunkSizeBytes ≤ i → i < c * g.chunkSizeBytes + g.chunkSizeBytes → f i = 0
  stored : ∀ e ∈ m.extents, ∀ c, e.HasChunk g.chunkSizeBytes c →
    (m.liveEntry g c).physicalChunkID ≠ 0 → ∀ r, m.IsWriteTarget e r →
    (stores.payload r e.extentID (m.liveEntry g c).physicalChunkID).getD
      (List.replicate g.chunkSizeBytes 0) =
        Window.window f (c * g.chunkSizeBytes) g.chunkSizeBytes
  foreign : ∀ e ∈ m.extents, ∀ r, ¬m.IsWriteTarget e r → ∀ k, stores.payload r e.extentID k = none
  unused : ∀ r e k, m.getNextChunkID ≤ k → stores.payload r e k = none

/-- The metadata are in order: where nothing is stored they stand for zeros. -/
def Repository.Sound (g : Geometry) (size : Nat) (m : Repository) : Prop :=
  Represents g size m (fun _ => none) fun _ => 0

namespace Represents

theorem showsFlat (h : Represents g size m stores f) (he : e ∈ m.extents) :
    ShowsFlat g (m.liveEntry g) f stores e.extentID (e.HasChunk g.chunkSizeBytes) := by
  refine ⟨h.zero e he, fun c hc hid r value hvalue => ?_⟩
  by_cases hr : m.IsWriteTarget e r
  · have hstored := h.stored e he c hc hid r hr
    rw [hvalue, Option.getD_some] at hstored
    exact hstored
  · rw [h.foreign e he r hr] at hvalue
    cases hvalue

theorem showsRange {c : Cluster} (h : Represents g size c.repository c.stores f) {off len : Nat} :
    ShowsRange g c f off len := by
  refine ⟨h.pagesWF, fun e he => (aligned_of_overlapped h.layout e he).length_pos,
    fun e he => ⟨f, fun _ _ _ => rfl, ?_⟩⟩
  obtain ⟨hzero, hstored⟩ := h.showsFlat (mem_of_mem_filter he)
  have hin : ∀ k, e.Meets g.chunkSizeBytes off len k → e.HasChunk g.chunkSizeBytes k :=
    fun k hk => ((aligned_of_overlapped h.layout e he).meets_iff g.chunkSizeBytes_pos).mp hk |>.2
  exact ⟨fun k hk => hzero k (hin k hk), fun k hk => hstored k (hin k hk)⟩

theorem flatMap_part_eq (h : Represents g size m stores f) (off len : Nat) :
    (m.overlapped off len).flatMap (part f off len) = window f off (min (off + len) size - off) := by
  have hparts := flatMap_part f off len h.layout.tiles
  rwa [Nat.max_zero] at hparts

theorem read_eq {c : Cluster} (h : Represents g size c.repository c.stores f) {req : ReadRequest}
    (hpage : req.pageBytes = g.pageBytes) (hchunk : req.chunkSizeBytes = g.chunkSizeBytes)
    {faults : StoreFaults} {data : List Byte} (hread : read faults c req = .ok data) :
    data = window f req.offsetBytes
      (min (req.offsetBytes + req.lengthBytes) size - req.offsetBytes) :=
  (h.showsRange.read_eq hpage hchunk hread).trans (h.flatMap_part_eq _ _)

end Represents

/-! ## Extents before and after other commits -/

namespace SameExtent

variable {e' : ExtentMappingRecord}

section

variable (h : SameExtent e e')

include h

theorem endOffset_eq : e'.endOffset = e.endOffset := by
  rw [endOffset, endOffset, h.logicalOffset_eq, h.lengthBytes_eq]

theorem hasChunk_iff {cs : Nat} : e'.HasChunk cs c ↔ e.HasChunk cs c := by
  rw [HasChunk, HasChunk, h.logicalOffset_eq,
    h.endOffset_eq]

theorem isWriteTarget_iff :
    m.IsWriteTarget e' r ↔ m.IsWriteTarget e r := by
  rw [IsWriteTarget, IsWriteTarget, h.placementRef_eq]

end

end SameExtent

/-- What stands for an array still does when others have changed the metadata and the stores but
neither its map nor an object with an id that it may use. -/
theorem Represents.frame (h : Represents g size m stores f) (hwf : m'.PagesWF g)
    (hlive : ∀ c, m'.liveEntry g c = m.liveEntry g c) (hexts : SameExtents m.extents m'.extents)
    (hsets : m'.replicaSets = m.replicaSets) (hnodes : m'.nodes = m.nodes)
    (hnext : m.getNextChunkID ≤ m'.getNextChunkID)
    (hpay : ∀ r e k, k < m.getNextChunkID → stores'.payload r e k = stores.payload r e k)
    (hforeign : ∀ e ∈ m'.extents, ∀ r, ¬m'.IsWriteTarget e r → ∀ k,
      stores'.payload r e.extentID k = none)
    (hunused : ∀ r e k, m'.getNextChunkID ≤ k → stores'.payload r e k = none) :
    Represents g size m' stores' f := by
  have hold : ∀ e' ∈ m'.extents, ∃ e ∈ m.extents, SameExtent e e' := fun e' he' =>
    exists_of_mem_right hexts he'
  refine ⟨h.layout.of_sameExtents hexts, hwf, ?_, ?_, ?_, ?_, ?_, hforeign, hunused⟩
  · intro c
    rw [hlive]
    exact h.plain c
  · intro c
    rw [hlive]
    exact (h.lt_next c).trans_le hnext
  · intro e' he' c c' hin hin' hid heq
    obtain ⟨e, he, hsame⟩ := hold e' he'
    rw [hlive] at hid
    rw [hlive, hlive] at heq
    exact h.inj e he c c' (hsame.hasChunk_iff.mp hin) (hsame.hasChunk_iff.mp hin') hid heq
  · intro e' he' c hin hid
    obtain ⟨e, he, hsame⟩ := hold e' he'
    rw [hlive] at hid
    exact h.zero e he c (hsame.hasChunk_iff.mp hin) hid
  · intro e' he' c hin hid r hr
    obtain ⟨e, he, hsame⟩ := hold e' he'
    have htarget : m.IsWriteTarget e r := by
      rw [← hsame.isWriteTarget_iff]
      unfold IsWriteTarget replicaSetForPlacement at hr ⊢
      rwa [hsets, hnodes] at hr
    rw [hlive] at hid ⊢
    rw [hpay _ _ _ (h.lt_next c), hsame.extentID_eq]
    exact h.stored e he c (hsame.hasChunk_iff.mp hin) hid r htarget

theorem Represents.of_same (h : Represents g size m stores f) (hpages : m'.pages = m.pages)
    (hexts : m'.extents = m.extents) (hsets : m'.replicaSets = m.replicaSets)
    (hnodes : m'.nodes = m.nodes) (hnext : m.getNextChunkID ≤ m'.getNextChunkID) :
    Represents g size m' stores f := by
  refine h.frame ?_ (fun c => by rw [liveEntry_congr hpages hexts]) (hexts ▸ .refl _) hsets hnodes
    hnext (fun _ _ _ _ => rfl) ?_ fun r e k hk => h.unused r e k (hnext.trans hk)
  · unfold PagesWF
    rw [hpages]
    exact h.pagesWF
  · intro e he r hr
    unfold IsWriteTarget replicaSetForPlacement at hr
    rw [hsets, hnodes] at hr
    exact h.foreign e (hexts ▸ he) r hr

/-! ## Writes in flight -/

/-- The plan gives the chunk another id than the live map had. -/
def Remaps (live planned : Nat → ChunkEntry) (c : Nat) : Prop :=
  (planned c).physicalChunkID ≠ (live c).physicalChunkID

/-- The plans of a write in flight, made when the live map was `live`: the chunks they touch
have not changed since, and an id that a chunk is remapped to is the write's own. -/
structure Reserved (g : Geometry) (m : Repository) (req : WriteRequest)
    (live planned : Nat → ChunkEntry) (plans : List ExtentWritePlan) : Prop where
  extents : SameExtents (plans.map (·.extent)) (m.overlapped req.offsetBytes req.lengthBytes)
  each : ∀ p ∈ plans, ChunkPlan g planned req p
  same : ∀ p ∈ plans, ∀ c,
    p.extent.Touched g.chunkSizeBytes req.offsetBytes req.lengthBytes c →
      m.liveEntry g c = live c
  targets : ∀ p ∈ plans, ∀ r, r ∈ p.targetIDs ↔ m.IsWriteTarget p.extent r
  lt_next : ∀ p ∈ plans, ∀ c ∈ writtenChunks g req p.extent,
    (planned c).physicalChunkID < m.getNextChunkID
  unmapped : ∀ p ∈ plans, ∀ c ∈ writtenChunks g req p.extent, Remaps live planned c →
    ∀ c', (m.liveEntry g c').physicalChunkID ≠ (planned c).physicalChunkID
  remaps : ∀ p ∈ plans, ∀ c ∈ writtenChunks g req p.extent, Remaps live planned c →
    (live c).physicalChunkID = 0 ∨ p.copyOnWrite = true
  inj : ∀ p ∈ plans, ∀ c ∈ writtenChunks g req p.extent,
    ∀ p' ∈ plans, ∀ c' ∈ writtenChunks g req p'.extent, Remaps live planned c →
      (planned c).physicalChunkID = (planned c').physicalChunkID → c = c'

def Unpaid (g : Geometry) (req : WriteRequest) (live planned : Nat → ChunkEntry)
    (plans : List ExtentWritePlan) (stores : PayloadStores) : Prop :=
  ∀ p ∈ plans, ∀ c ∈ writtenChunks g req p.extent, Remaps live planned c →
    ∀ r, stores.payload r p.extent.extentID (planned c).physicalChunkID = none

/-- The remapped chunks hold the contents of `f` on every target. -/
def Paid (g : Geometry) (req : WriteRequest) (live planned : Nat → ChunkEntry)
    (plans : List ExtentWritePlan) (f : Nat → Byte) (stores : PayloadStores) : Prop :=
  ∀ p ∈ plans, ∀ c ∈ writtenChunks g req p.extent, Remaps live planned c →
    ∀ r ∈ p.targetIDs, stores.payload r p.extent.extentID (planned c).physicalChunkID =
      some (WriterPlan.content g f c)

def WriteRequest.Writes (req : WriteRequest) (i : Nat) : Prop :=
  req.offsetBytes ≤ i ∧ i < req.offsetBytes + req.bytes.length

theorem patch_of_not_writes (h : ¬req.Writes i) (f : Nat → Byte) :
    patch f req.offsetBytes req.bytes i = f i := by
  unfold WriteRequest.Writes at h
  by_cases hlo : i < req.offsetBytes
  · exact patch_of_lt hlo
  · exact patch_of_ge (by omega)

theorem patch_congr_writes (h : req.Writes i) (f f' : Nat → Byte) :
    patch f' req.offsetBytes req.bytes i = patch f req.offsetBytes req.bytes i := by
  obtain ⟨hlo, hhi⟩ := h
  have hget : req.bytes[i - req.offsetBytes]? =
      some (req.bytes.get ⟨i - req.offsetBytes, by omega⟩) := getElem?_eq_getElem _
  rw [patch_of_mem hlo hget, patch_of_mem hlo hget]

namespace Reserved

section

variable (h : Reserved g m req live planned plans)

include h

theorem exists_extent (hp : p ∈ plans) : ∃ e ∈ m.extents, SameExtent p.extent e := by
  obtain ⟨e, he, hsame⟩ := exists_of_mem_left h.extents (mem_map_of_mem hp)
  exact ⟨e, (mem_overlapped.mp he).1, hsame⟩

theorem exists_plan (he : e ∈ m.extents) (hov : e.overlaps req.offsetBytes req.lengthBytes = true) :
    ∃ p ∈ plans, SameExtent p.extent e := by
  obtain ⟨e0, he0, hsame⟩ := exists_of_mem_right h.extents (mem_overlapped.mpr ⟨he, hov⟩)
  obtain ⟨p, hp, rfl⟩ := mem_map.mp he0
  exact ⟨p, hp, hsame⟩

theorem pairwise_ids (hrep : Represents g size m stores f) :
    plans.Pairwise fun p p' => p.extent.extentID ≠ p'.extent.extentID := by
  have hcur : (m.overlapped req.offsetBytes req.lengthBytes).Pairwise
      fun e e' => e.extentID ≠ e'.extentID :=
    (hrep.layout.sorted.pairwise_ne).sublist filter_sublist
  have hids : ((m.overlapped req.offsetBytes req.lengthBytes).map (·.extentID)).Pairwise
      (· ≠ ·) := pairwise_map.mpr hcur
  rw [h.extents.map_extentID, map_map] at hids
  exact pairwise_map.mp hids

theorem separate (hrep : Represents g size m stores f)
    (hp : p ∈ plans) : WriterPlan.Separate g live planned req p := by
  intro c hc c' hc' hne
  obtain ⟨e, he, hsame⟩ := h.exists_extent hp
  have htouch := ((h.each p hp).mem_writtenChunks.mp hc).1
  have htouch' := ((h.each p hp).mem_writtenChunks.mp hc').1
  have hmapped := (h.each p hp).mapped c htouch ((h.each p hp).mem_writtenChunks.mp hc).2
  have hlive := h.same p hp c htouch
  have hlive' := h.same p hp c' htouch'
  -- an id is neither that of another live chunk
  have hother : (planned c).physicalChunkID ≠ (live c').physicalChunkID := by
    by_cases hre : Remaps live planned c
    · rw [← hlive']
      exact (h.unmapped p hp c hc hre c').symm
    rw [not_not.mp hre] at hmapped ⊢
    rw [← hlive] at hmapped
    rw [← hlive, ← hlive']
    exact fun heq => hne (hrep.inj e he c c' (hsame.hasChunk_iff.mpr htouch.2)
      (hsame.hasChunk_iff.mpr htouch'.2) hmapped heq)
  -- nor that of another planned one
  have hplan : (planned c).physicalChunkID ≠ (planned c').physicalChunkID := by
    by_cases hre : Remaps live planned c
    · exact fun heq => hne (h.inj p hp c hc p hp c' hc' hre heq)
    by_cases hre' : Remaps live planned c'
    · exact fun heq => hne (h.inj p hp c' hc' p hp c hc hre' heq.symm).symm
    · rw [not_not.mp hre']
      exact hother
  refine ⟨?_, hplan⟩
  unfold sourceID
  split
  · exact hother
  · exact hplan

end

/-- The objects under fresh ids are not there yet, the others hold the array. -/
theorem plansReady (h : Reserved g m req live planned plans)
    (hplans : ∀ p ∈ plans, WriterPlan g live planned req p)
    (hrep : Represents g size m stores f) (hunpaid : Unpaid g req live planned plans stores) :
    PlansReady g live planned req (patch f req.offsetBytes req.bytes) plans stores := by
  refine ⟨fun p hp => ⟨hplans p hp, h.separate hrep hp⟩, ?_, h.pairwise_ids hrep⟩
  intro p hp r hr c hc
  obtain ⟨e, he, hsame⟩ := h.exists_extent hp
  have hplan := h.each p hp
  have htouch := (hplan.mem_writtenChunks.mp hc).1
  have hin := hsame.hasChunk_iff.mpr htouch.2
  have hlive := h.same p hp c htouch
  have htarget : m.IsWriteTarget e r := hsame.isWriteTarget_iff.mpr ((h.targets p hp r).mp hr)
  have hmapped := hplan.mapped c htouch (hplan.mem_writtenChunks.mp hc).2
  have hstored : (live c).physicalChunkID ≠ 0 →
      (stores.payload r p.extent.extentID (live c).physicalChunkID).getD
        (replicate g.chunkSizeBytes 0) =
          window f (c * g.chunkSizeBytes) g.chunkSizeBytes := by
    intro hid
    rw [← hlive] at hid ⊢
    rw [← hsame.extentID_eq]
    exact hrep.stored e he c hin hid r htarget
  refine ⟨f, ?_, fun i hlo hhi hout => ?_⟩
  rotate_left
  · -- what lies outside the request's part in the extent lies outside the request
    have hlen := req.length_bytes_le
    obtain ⟨hclo, hchi⟩ := htouch.2
    unfold WriterPlan.length WriterPlan.start at hout
    by_cases hlt : i < req.offsetBytes
    · exact (patch_of_lt hlt).symm
    · exact (patch_of_ge (by omega)).symm
  unfold sourceID
  split
  · next hcow => exact hstored hcow.2.1
  next hcow =>
  by_cases hre : Remaps live planned c
  · -- a fresh chunk that starts from nothing
    have hzero : (live c).physicalChunkID = 0 := by
      rcases h.remaps p hp c hc hre with hzero | hflag
      · exact hzero
      · by_contra hid
        exact hcow ⟨hflag, hid, fun heq => hre heq.symm⟩
    rw [hunpaid p hp c hc hre r, Option.getD_none, ← window_const (0 : Byte) (c * g.chunkSizeBytes)]
    rw [← hlive] at hzero
    exact window_congr fun i hlo hhi => (hrep.zero e he c hin hzero i hlo hhi).symm
  · have heq := not_not.mp hre
    rw [heq] at hmapped ⊢
    exact hstored hmapped

def InPlace (g : Geometry) (req : WriteRequest) (live planned : Nat → ChunkEntry)
    (plans : List ExtentWritePlan) (c : Nat) : Prop :=
  (∃ p ∈ plans, c ∈ writtenChunks g req p.extent) ∧ ¬Remaps live planned c

open Classical in
/-- The array once the payload is written: only chunks overwritten in place show it. -/
noncomputable def paidArray (g : Geometry) (req : WriteRequest)
    (live planned : Nat → ChunkEntry) (plans : List ExtentWritePlan) (f : Nat → Byte)
    (i : Nat) : Byte :=
  if InPlace g req live planned plans (i / g.chunkSizeBytes) then
    patch f req.offsetBytes req.bytes i
  else f i

theorem paidArray_of_inPlace (hc : InPlace g req live planned plans c)
    (hlo : c * g.chunkSizeBytes ≤ i) (hhi : i < c * g.chunkSizeBytes + g.chunkSizeBytes) :
    paidArray g req live planned plans f i = patch f req.offsetBytes req.bytes i := by
  rw [paidArray, (div_eq_iff_chunk g.chunkSizeBytes_pos).mpr ⟨hlo, hhi⟩, if_pos hc]

theorem paidArray_of_not_inPlace (hc : ¬InPlace g req live planned plans c)
    (hlo : c * g.chunkSizeBytes ≤ i) (hhi : i < c * g.chunkSizeBytes + g.chunkSizeBytes) :
    paidArray g req live planned plans f i = f i := by
  rw [paidArray, (div_eq_iff_chunk g.chunkSizeBytes_pos).mpr ⟨hlo, hhi⟩, if_neg hc]

theorem patch_paidArray :
    patch (paidArray g req live planned plans f) req.offsetBytes req.bytes =
      patch f req.offsetBytes req.bytes := by
  funext i
  by_cases hi : req.Writes i
  · exact patch_congr_writes hi _ _
  · rw [patch_of_not_writes hi, patch_of_not_writes hi, paidArray, patch_of_not_writes hi, ite_self]

section

variable (h : Reserved g m req live planned plans)

include h

/-- After the payload the volume shows it where it was overwritten in place, and the remapped
chunks hold it. -/
theorem payload_represents (hrep : Represents g size m stores f)
    (hstored : StoredPlans g planned req (patch f req.offsetBytes req.bytes) plans stores stores') :
    Represents g size m stores' (paidArray g req live planned plans f) ∧
      Paid g req live planned plans (patch f req.offsetBytes req.bytes) stores' := by
  refine ⟨⟨hrep.layout, hrep.pagesWF, hrep.plain, hrep.lt_next, hrep.inj, ?_, ?_, ?_, ?_⟩,
    fun p hp c hc _ r hr => hstored.found p hp r hr c hc⟩
  · intro e he c hin hid i hlo hhi
    rw [paidArray_of_not_inPlace _ hlo hhi]
    · exact hrep.zero e he c hin hid i hlo hhi
    · rintro ⟨⟨p, hp, hc⟩, hre⟩
      obtain ⟨htouch, hskip⟩ := (h.each p hp).mem_writtenChunks.mp hc
      refine (h.each p hp).mapped c htouch hskip ?_
      rw [not_not.mp hre, ← h.same p hp c htouch]
      exact hid
  · intro e he c hin hid r hr
    by_cases hkey : PlanKeys g planned req plans r e.extentID (m.liveEntry g c).physicalChunkID
    · -- an object that a live chunk has and that the write stores is overwritten in place
      obtain ⟨p, hp, hmem, hext, c', hc, hk⟩ := hkey
      obtain ⟨e', he', hsame⟩ := h.exists_extent hp
      obtain rfl := hrep.layout.eq_of_extentID he he' (hext.trans hsame.extentID_eq.symm)
      have htouch := ((h.each p hp).mem_writtenChunks.mp hc).1
      have hre : ¬Remaps live planned c' := fun hre => h.unmapped p hp c' hc hre c hk
      obtain rfl : c = c' := by
        refine hrep.inj e he c c' hin (hsame.hasChunk_iff.mpr htouch.2) hid ?_
        rw [hk, h.same p hp c' htouch]
        exact not_not.mp hre
      rw [hext, hk, hstored.found p hp r hmem c hc, Option.getD_some]
      exact window_congr fun i hlo hhi =>
        (paidArray_of_inPlace ⟨⟨p, hp, hc⟩, hre⟩ hlo hhi).symm
    · rw [hstored.frame.payload_eq _ _ _ hkey, hrep.stored e he c hin hid r hr]
      refine window_congr fun i hlo hhi => (paidArray_of_not_inPlace ?_ hlo hhi).symm
      rintro ⟨⟨p, hp, hc⟩, hre⟩
      -- a chunk written in place is stored on every target
      obtain ⟨e', he', hsame⟩ := h.exists_extent hp
      have htouch := ((h.each p hp).mem_writtenChunks.mp hc).1
      obtain rfl := hrep.layout.eq_of_hasChunk he he' hin (hsame.hasChunk_iff.mpr htouch.2)
      refine hkey ⟨p, hp, (h.targets p hp r).mpr (hsame.isWriteTarget_iff.mp hr),
        hsame.extentID_eq, c, hc, ?_⟩
      rw [not_not.mp hre, h.same p hp c htouch]
  · intro e he r hr k
    rw [hstored.frame.payload_eq]
    · exact hrep.foreign e he r hr k
    · rintro ⟨p, hp, hmem, hext, -⟩
      obtain ⟨e', he', hsame⟩ := h.exists_extent hp
      obtain rfl := hrep.layout.eq_of_extentID he he' (hext.trans hsame.extentID_eq.symm)
      exact hr (hsame.isWriteTarget_iff.mpr ((h.targets p hp r).mp hmem))
  · intro r e k hk
    rw [hstored.frame.payload_eq]
    · exact hrep.unused r e k hk
    · rintro ⟨p, hp, -, -, c, hc, rfl⟩
      exact absurd (h.lt_next p hp c hc) (Nat.not_lt.mpr hk)

theorem patch_eq_of_untouched (htouch : ∀ p ∈ plans, ∀ c,
      p.extent.Touched g.chunkSizeBytes req.offsetBytes req.lengthBytes c → c ∈ touched)
    (he : e ∈ m.extents) (hin : e.HasChunk g.chunkSizeBytes c) (hc : c ∉ touched)
    (hlo : c * g.chunkSizeBytes ≤ i) (hhi : i < c * g.chunkSizeBytes + g.chunkSizeBytes) :
    patch f req.offsetBytes req.bytes i = f i := by
  have hlen := req.length_bytes_le
  by_cases hhits : Hits g.chunkSizeBytes req.offsetBytes req.lengthBytes c
  · obtain ⟨p, hp, hsame⟩ := h.exists_plan he (overlaps_of_hits hhits hin)
    exact (hc (htouch p hp c ⟨hhits, hsame.hasChunk_iff.mp hin⟩)).elim
  unfold Hits at hhits
  by_cases hlt : i < req.offsetBytes
  · exact patch_of_lt hlt
  · exact patch_of_ge (by omega)

end

end Reserved

/-! ## After the commit -/

variable {target : Nat → ChunkEntry}

section

variable (h : IsCommitted g m touched target key m')

include h

theorem IsCommitted.isWriteTarget_iff : m'.IsWriteTarget e r ↔ m.IsWriteTarget e r := by
  unfold IsWriteTarget replicaSetForPlacement
  rw [h.replicaSets_eq, h.nodes_eq]

theorem IsCommitted.getNextChunkID_eq : m'.getNextChunkID = m.getNextChunkID := by
  rw [getNextChunkID, getNextChunkID, h.nextChunkID_eq]

end

section Commit

def TouchedBy (g : Geometry) (req : WriteRequest) (plans : List ExtentWritePlan)
    (touched : List Nat) : Prop :=
  ∀ c, c ∈ touched ↔ ∃ p ∈ plans,
    p.extent.Touched g.chunkSizeBytes req.offsetBytes req.lengthBytes c

variable (h : Reserved g m req live planned plans)

include h

theorem Reserved.planned_eq_live (hp : p ∈ plans) (hc : c ∈ writtenChunks g req p.extent)
    (hre : ¬Remaps live planned c) :
    (planned c).physicalChunkID = (m.liveEntry g c).physicalChunkID := by
  rw [h.same p hp c ((h.each p hp).mem_writtenChunks.mp hc).1]
  exact not_not.mp hre

variable (htouch : TouchedBy g req plans touched) (hne : touched ≠ [])
  (hcommit : IsCommitted g m touched (writeEntry g req planned) key m')

include htouch hne hcommit

theorem Reserved.committed_cases (c : Nat) :
    (c ∈ touched ∧ req.skips g c = true ∧ m'.liveEntry g c = .zero) ∨
      (∃ p ∈ plans, c ∈ writtenChunks g req p.extent ∧
        m'.liveEntry g c = ⟨(planned c).physicalChunkID, none⟩) ∨
      (c ∉ touched ∧ (m'.liveEntry g c = m.liveEntry g c ∨
        m.pages = [] ∧ m'.liveEntry g c = .zero)) := by
  rw [liveEntry, if_neg (hcommit.effect.ne_nil hne)]
  by_cases hc : c ∈ touched
  · have hlive := hcommit.effect.touched_eq c hc
    unfold writeEntry at hlive
    by_cases hskip : req.skips g c = true
    · rw [if_pos hskip] at hlive
      exact .inl ⟨hc, hskip, hlive⟩
    rw [if_neg hskip] at hlive
    obtain ⟨p, hp, ht⟩ := (htouch c).mp hc
    exact .inr (.inl ⟨p, hp, (h.each p hp).mem_writtenChunks.mpr ⟨ht, by simpa using hskip⟩, hlive⟩)
  · exact .inr (.inr ⟨hc, hcommit.effect.untouched c hc⟩)

theorem Reserved.committed_id (hid : (m'.liveEntry g c).physicalChunkID ≠ 0) :
    (∃ p ∈ plans, c ∈ writtenChunks g req p.extent ∧
        (m'.liveEntry g c).physicalChunkID = (planned c).physicalChunkID) ∨
      (c ∉ touched ∧ m'.liveEntry g c = m.liveEntry g c) := by
  rcases h.committed_cases htouch hne hcommit c with
    ⟨-, -, heq⟩ | ⟨p, hp, hc, heq⟩ | ⟨hc, heq | ⟨-, heq⟩⟩
  · exact (hid (by rw [heq]; rfl)).elim
  · exact .inl ⟨p, hp, hc, by rw [heq]⟩
  · exact .inr ⟨hc, heq⟩
  · exact (hid (by rw [heq]; rfl)).elim

variable (hrep : Represents g size m stores f)

include hrep

theorem Reserved.committed_inj (he : e ∈ m.extents) {c' : Nat} (hin : e.HasChunk g.chunkSizeBytes c)
    (hin' : e.HasChunk g.chunkSizeBytes c') (hid : (m'.liveEntry g c).physicalChunkID ≠ 0)
    (heq : (m'.liveEntry g c).physicalChunkID = (m'.liveEntry g c').physicalChunkID) : c = c' := by
  -- an id that the plan and the old map share belongs to one chunk
  have hmixed : ∀ p ∈ plans, ∀ x ∈ writtenChunks g req p.extent, ∀ y,
      e.HasChunk g.chunkSizeBytes x → e.HasChunk g.chunkSizeBytes y →
      (m.liveEntry g y).physicalChunkID ≠ 0 →
      (m.liveEntry g y).physicalChunkID = (planned x).physicalChunkID → y = x := by
    intro p hp x hx y hinx hiny hidy hxy
    have hre : ¬Remaps live planned x := fun hre => h.unmapped p hp x hx hre y hxy
    exact hrep.inj e he y x hiny hinx hidy (hxy.trans (h.planned_eq_live hp hx hre))
  have hid' : (m'.liveEntry g c').physicalChunkID ≠ 0 := heq ▸ hid
  rcases h.committed_id htouch hne hcommit hid with ⟨p, hp, hc, hcid⟩ | ⟨-, hcl⟩
  · rcases h.committed_id htouch hne hcommit hid' with ⟨p', hp', hc', hcid'⟩ | ⟨-, hcl'⟩
    · have hplan : (planned c).physicalChunkID = (planned c').physicalChunkID := by
        rw [← hcid, ← hcid', heq]
      by_cases hre : Remaps live planned c
      · exact h.inj p hp c hc p' hp' c' hc' hre hplan
      · have hlive := h.planned_eq_live hp hc hre
        rw [hcid, hlive] at hid
        exact hmixed p' hp' c' hc' c hin' hin hid (hlive.symm.trans hplan)
    · rw [hcl'] at hid' heq
      exact (hmixed p hp c hc c' hin hin' hid' (heq.symm.trans hcid)).symm
  · rw [hcl] at hid heq
    rcases h.committed_id htouch hne hcommit hid' with ⟨p', hp', hc', hcid'⟩ | ⟨-, hcl'⟩
    · exact hmixed p' hp' c' hc' c hin' hin hid (heq.trans hcid')
    · rw [hcl'] at heq
      exact hrep.inj e he c c' hin hin' hid heq

theorem Reserved.commit_sound : m'.Sound g size := by
  have hcases := h.committed_cases htouch hne hcommit
  refine ⟨hrep.layout.of_sameExtents hcommit.extents, hcommit.effect.wf, ?_, ?_, ?_,
    fun _ _ _ _ _ _ _ _ => rfl, fun _ _ _ _ _ _ _ => (window_const (0 : Byte) _ _).symm,
    fun _ _ _ _ _ => rfl, fun _ _ _ _ => rfl⟩
  · intro c
    rcases hcases c with ⟨-, -, heq⟩ | ⟨p, hp, hc, heq⟩ | ⟨-, heq | ⟨-, heq⟩⟩
    · rw [heq]; rfl
    · rw [heq]
    · rw [heq]; exact hrep.plain c
    · rw [heq]; rfl
  · intro c
    rw [hcommit.getNextChunkID_eq]
    rcases hcases c with ⟨-, -, heq⟩ | ⟨p, hp, hc, heq⟩ | ⟨-, heq | ⟨-, heq⟩⟩
    · rw [heq]; exact m.getNextChunkID_pos
    · rw [heq]; exact h.lt_next p hp c hc
    · rw [heq]; exact hrep.lt_next c
    · rw [heq]; exact m.getNextChunkID_pos
  · intro e' he' c c' hin hin' hid heq
    obtain ⟨e, he, hsame⟩ := exists_of_mem_right hcommit.extents he'
    exact h.committed_inj htouch hne hcommit hrep he (hsame.hasChunk_iff.mp hin)
      (hsame.hasChunk_iff.mp hin') hid heq

/-- With its payload stored and its pages committed, the write is in the array. -/
theorem Reserved.commit_represents
    (hpaid : Paid g req live planned plans (patch f req.offsetBytes req.bytes) stores)
    (hplace : ∀ c, Reserved.InPlace g req live planned plans c → ∀ i,
      c * g.chunkSizeBytes ≤ i → i < c * g.chunkSizeBytes + g.chunkSizeBytes →
        patch f req.offsetBytes req.bytes i = f i)
    (hnil : m.pages = [] → ∀ e ∈ m.extents, ∀ c, e.HasChunk g.chunkSizeBytes c → c ∉ touched →
      ∀ i, c * g.chunkSizeBytes ≤ i → i < c * g.chunkSizeBytes + g.chunkSizeBytes → f i = 0) :
    Represents g size m' stores (patch f req.offsetBytes req.bytes) := by
  have hcases := h.committed_cases htouch hne hcommit
  have hsound := h.commit_sound htouch hne hcommit hrep
  have hmem : ∀ p ∈ plans, ∀ c,
      p.extent.Touched g.chunkSizeBytes req.offsetBytes req.lengthBytes c → c ∈ touched :=
    fun p hp c hc => (htouch c).mpr ⟨p, hp, hc⟩
  refine ⟨hsound.layout, hsound.pagesWF, hsound.plain, hsound.lt_next, hsound.inj, ?_, ?_, ?_, ?_⟩
  · intro e' he' c hin hid i hlo hhi
    obtain ⟨e, he, hsame⟩ := exists_of_mem_right hcommit.extents he'
    have hin := hsame.hasChunk_iff.mp hin
    rcases hcases c with ⟨-, hskip, -⟩ | ⟨p, hp, hc, heq⟩ | ⟨hc, hother⟩
    · unfold WriteRequest.skips coversChunk at hskip
      rw [Bool.and_eq_true, decide_eq_true_eq] at hskip
      refine patch_of_mem (by omega) ?_
      rw [WriteRequest.bytes, if_pos hskip.1, getElem?_replicate, if_pos (by omega)]
    · obtain ⟨ht, hskip⟩ := (h.each p hp).mem_writtenChunks.mp hc
      rw [heq] at hid
      exact ((h.each p hp).mapped c ht hskip hid).elim
    rw [h.patch_eq_of_untouched hmem he hin hc hlo hhi]
    rcases hother with heq | ⟨hpages, -⟩
    · exact hrep.zero e he c hin (heq ▸ hid) i hlo hhi
    · exact hnil hpages e he c hin hc i hlo hhi
  · intro e' he' c hin hid r hr
    obtain ⟨e, he, hsame⟩ := exists_of_mem_right hcommit.extents he'
    have hin := hsame.hasChunk_iff.mp hin
    have hr := hsame.isWriteTarget_iff.mp (hcommit.isWriteTarget_iff.mp hr)
    rw [hsame.extentID_eq]
    rcases h.committed_id htouch hne hcommit hid with ⟨p, hp, hc, hcid⟩ | ⟨hc, hcl⟩
    · rw [hcid] at hid ⊢
      obtain ⟨e1, he1, hsame1⟩ := h.exists_extent hp
      have ht := ((h.each p hp).mem_writtenChunks.mp hc).1
      obtain rfl := hrep.layout.eq_of_hasChunk he he1 hin (hsame1.hasChunk_iff.mpr ht.2)
      by_cases hre : Remaps live planned c
      · rw [hsame1.extentID_eq, hpaid p hp c hc hre r
          ((h.targets p hp r).mpr (hsame1.isWriteTarget_iff.mp hr))]
        rfl
      rw [h.planned_eq_live hp hc hre] at hid ⊢
      rw [hrep.stored e he c hin hid r hr]
      exact window_congr fun i hlo hhi =>
        (hplace c ⟨⟨p, hp, hc⟩, hre⟩ i hlo hhi).symm
    · rw [hcl] at hid ⊢
      rw [hrep.stored e he c hin hid r hr]
      exact window_congr fun i hlo hhi =>
        (h.patch_eq_of_untouched hmem he hin hc hlo hhi).symm
  · intro e' he' r hr k
    obtain ⟨e, he, hsame⟩ := exists_of_mem_right hcommit.extents he'
    rw [hsame.extentID_eq]
    exact hrep.foreign e he r (fun hr' => hr (hcommit.isWriteTarget_iff.mpr
      (hsame.isWriteTarget_iff.mpr hr'))) k
  · rw [hcommit.getNextChunkID_eq]
    exact hrep.unused

end Commit

end Namrbd
