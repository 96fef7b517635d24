import Namrbd.Verify.BeginWrite
import Namrbd.Verify.Represents

/-!
# Beginning a write reserves its chunks

A write that has begun holds plans over the live map, with ids for the chunks it
remaps that nothing else uses.
-/

namespace Namrbd

open Repository

structure WriteRequest.HasGeometry (req : WriteRequest) (g : Geometry) : Prop where
  pageBytes_eq : req.pageBytes = g.pageBytes
  chunkSizeBytes_eq : req.chunkSizeBytes = g.chunkSizeBytes

def plannedMap (g : Geometry) (m : Repository) (req : WriteRequest) : Nat → ChunkEntry :=
  plannedEntry (m.liveEntry g) (freshChunks g m req) m.getNextChunkID

section Reserve

variable {g : Geometry} {size : Nat} {m m1 : Repository} {stores : PayloadStores}
  {f : Nat → Byte} {req : WriteRequest} {state : VolumeState} {plan plan' : List ExtentWritePlan}

theorem Planned.isWritePlans (h : Planned m req state plan plan' m1)
    (hrep : Represents g size m stores f) (hgeom : req.HasGeometry g) (hlen : 0 < req.lengthBytes) :
    m1 = m.takeChunkIDs (freshChunks g m req).length ∧
      IsWritePlans g m (plannedMap g m req) req.offsetBytes req.lengthBytes plan' := by
  have hplans := h.plans
  rw [planRequest, hgeom.pageBytes_eq, hgeom.chunkSizeBytes_eq] at hplans
  have hplan := planWrite_ok hrep.pagesWF hrep.layout hlen hplans
  obtain ⟨plan'', hprep, hplan''⟩ := prepareWritePlanAllocations_ok hrep.pagesWF hrep.layout
    hlen h.volume hplan
  rw [h.prepared] at hprep
  cases hprep
  exact ⟨rfl, hplan''⟩

theorem Repository.getNextChunkID_takeChunkIDs (m : Repository) (count : Nat) :
    (m.takeChunkIDs count).getNextChunkID = m.getNextChunkID + count := by
  unfold takeChunkIDs
  split
  · next hcount => rw [hcount, Nat.add_zero]
  next hcount =>
  rw [getNextChunkID, if_neg]
  dsimp only
  omega

theorem mem_freshChunks_of_remaps {c : Nat} (h : Remaps (m.liveEntry g) (plannedMap g m req) c) :
    c ∈ freshChunks g m req := by
  by_contra hc
  exact h (by rw [plannedMap, plannedEntry_of_notMem hc])

theorem plannedMap_ge {c : Nat} (hc : c ∈ freshChunks g m req) :
    m.getNextChunkID ≤ (plannedMap g m req c).physicalChunkID :=
  (plannedEntry_bounds hc).1

theorem takeChunkIDs_same (m : Repository) (count : Nat) :
    ∃ next, m.takeChunkIDs count = { m with nextChunkID := next } := by
  unfold takeChunkIDs
  split
  · exact ⟨m.nextChunkID, rfl⟩
  · exact ⟨_, rfl⟩

variable {p : ExtentWritePlan}

theorem chunkPlan_plannedMap (hlay : Layout g size m.extents) (hlen : 0 < req.lengthBytes)
    (hmem : p.extent ∈ m.extents) (hov : p.extent.overlaps req.offsetBytes req.lengthBytes = true) :
    ChunkPlan g (plannedMap g m req) req p where
  length_pos := hlen
  aligned := hlay.aligned hmem
  overlaps := hov
  mapped := by
    intro c htouch hskip hzero
    by_cases hc : c ∈ freshChunks g m req
    · have hge := plannedMap_ge hc
      have hpos := m.getNextChunkID_pos
      omega
    -- a chunk that gets no id has one
    rw [plannedMap, plannedEntry_of_notMem hc] at hzero
    refine hc ((mem_freshChunks hlay hlen).mpr ⟨⟨p.extent, hmem, htouch⟩, ?_⟩)
    simp [needsFreshChunk, hskip, hzero]

/-- A plan with fresh ids is a reservation. -/
theorem Planned.reserved (h : Planned m req state plan plan' m1)
    (hrep : Represents g size m stores f) (hgeom : req.HasGeometry g) (hlen : 0 < req.lengthBytes) :
    Reserved g m1 req (m.liveEntry g) (plannedMap g m req) plan' ∧
      (∀ p ∈ plan', WriterPlan g (m.liveEntry g) (plannedMap g m req) req p) ∧
      Unpaid g req (m.liveEntry g) (plannedMap g m req) plan' stores := by
  obtain ⟨rfl, hplan⟩ := h.isWritePlans hrep hgeom hlen
  have hmem : ∀ p ∈ plan', p.extent ∈ m.extents ∧
      p.extent.overlaps req.offsetBytes req.lengthBytes = true := fun p hp =>
    mem_overlapped.mp (hplan.extents_eq ▸ List.mem_map_of_mem hp)
  have hlt : ∀ c, (plannedMap g m req c).physicalChunkID <
      (m.takeChunkIDs (freshChunks g m req).length).getNextChunkID := by
    intro c
    rw [getNextChunkID_takeChunkIDs]
    by_cases hc : c ∈ freshChunks g m req
    · exact (plannedEntry_bounds hc).2
    · rw [plannedMap, plannedEntry_of_notMem hc]
      exact (hrep.lt_next c).trans_le (Nat.le_add_right _ _)
  obtain ⟨next, htake⟩ := takeChunkIDs_same m (freshChunks g m req).length
  rw [htake] at hlt ⊢
  have hwriter : ∀ p ∈ plan', WriterPlan g (m.liveEntry g) (plannedMap g m req) req p := by
    intro p hp
    have heach := hplan.each p hp
    refine ⟨chunkPlan_plannedMap hrep.layout hlen (hmem p hp).1 (hmem p hp).2,
      heach.chunkSizeBytes_eq, heach.pages, heach.base, fun c => ⟨?_, hrep.plain c⟩⟩
    unfold plannedMap plannedEntry
    split
    · exact hrep.plain c
    · exact hrep.plain c
  refine ⟨⟨?_, fun p hp => (hwriter p hp).toChunkPlan, fun _ _ _ _ => rfl, ?_,
    fun p hp c _ => hlt c, ?_, ?_, ?_⟩, hwriter, ?_⟩
  · rw [hplan.extents_eq]
    exact .refl _
  · intro p hp r
    obtain ⟨replicaSet, hset, hbuild, -⟩ := (hplan.each p hp).targets
    constructor
    · exact fun hr => ⟨replicaSet, p.writeTargets, hset, ⟨p.primary, hbuild⟩, hr⟩
    rintro ⟨replicaSet', targets, hset', ⟨primary, hbuild'⟩, hr⟩
    obtain rfl : replicaSet = replicaSet' := Option.some.inj (hset.symm.trans hset')
    rw [hbuild] at hbuild'
    cases hbuild'
    exact hr
  · intro p hp c hc hre c' heq
    have hge := plannedMap_ge (mem_freshChunks_of_remaps hre)
    have hlt := hrep.lt_next c'
    have heq' : (m.liveEntry g c').physicalChunkID = (plannedMap g m req c).physicalChunkID := heq
    omega
  · intro p hp c hc hre
    have hneeds := ((mem_freshChunks hrep.layout hlen).mp (mem_freshChunks_of_remaps hre)).2
    rw [(hplan.each p hp).copyOnWrite_eq]
    unfold needsFreshChunk at hneeds
    rw [Bool.and_eq_true, Bool.or_eq_true, beq_iff_eq] at hneeds
    exact hneeds.2
  · intro p hp c hc p' hp' c' hc' hre heq
    have hfresh := mem_freshChunks_of_remaps hre
    by_cases hfresh' : c' ∈ freshChunks g m req
    · rw [plannedMap, plannedEntry_of_mem hfresh, plannedEntry_of_mem hfresh'] at heq
      exact (List.idxOf_inj hfresh).mp (Nat.add_left_cancel heq)
    · have hge := plannedMap_ge hfresh
      rw [heq, plannedMap, plannedEntry_of_notMem hfresh'] at hge
      exact absurd (hrep.lt_next c') (Nat.not_lt.mpr hge)
  · intro p hp c hc hre r
    exact hrep.unused _ _ _ (plannedMap_ge (mem_freshChunks_of_remaps hre))

end Reserve

end Namrbd
