import Namrbd.Replication.Allocation
import Namrbd.Verify.ChunkMap

/-!
# The pages of a plan

`PlanPages` says what the resolved pages in a plan have to do with a chunk map:
they are well formed and distinct, show the map, and cover the chunks the
request touches in the extent. Lookups in the pages then read the map.
-/

namespace Namrbd

open List Result

variable {chunk off len : Nat} {extent : ExtentMappingRecord} {g : Geometry}
  {page : AllocationPageRecord}

/-! ## Chunks of a byte range -/

/-- The range meets the chunk. -/
def Hits (chunkSizeBytes start length chunk : Nat) : Prop :=
  chunk * chunkSizeBytes < start + length ∧ start < chunk * chunkSizeBytes + chunkSizeBytes

instance (chunkSizeBytes start length chunk : Nat) :
    Decidable (Hits chunkSizeBytes start length chunk) :=
  inferInstanceAs (Decidable (_ ∧ _))

/-- The whole chunk lies in the extent. -/
def ExtentMappingRecord.HasChunk (chunkSizeBytes : Nat) (extent : ExtentMappingRecord)
    (chunk : Nat) : Prop :=
  extent.logicalOffset ≤ chunk * chunkSizeBytes ∧
    chunk * chunkSizeBytes + chunkSizeBytes ≤ extent.endOffset

/-- A chunk of the extent that the range meets. -/
def ExtentMappingRecord.Touched (chunkSizeBytes : Nat) (extent : ExtentMappingRecord)
    (off len chunk : Nat) : Prop :=
  Hits chunkSizeBytes off len chunk ∧ extent.HasChunk chunkSizeBytes chunk

/-- The request and the extent both reach into the chunk. -/
def ExtentMappingRecord.Meets (chunkSizeBytes : Nat) (extent : ExtentMappingRecord)
    (off len chunk : Nat) : Prop :=
  Hits chunkSizeBytes off len chunk ∧
    Hits chunkSizeBytes extent.logicalOffset extent.lengthBytes chunk

/-- The extent starts and ends at chunk boundaries, and is not empty. -/
structure ExtentMappingRecord.Aligned (chunkSizeBytes : Nat) (extent : ExtentMappingRecord) :
    Prop where
  start_dvd : chunkSizeBytes ∣ extent.logicalOffset
  length_dvd : chunkSizeBytes ∣ extent.lengthBytes
  length_pos : 0 < extent.lengthBytes

section Chunks

variable {cs : Nat}

theorem mem_touchedChunks (hcs : 0 < cs) {start length : Nat} (hlen : 0 < length) :
    chunk ∈ touchedChunks cs start length ↔ Hits cs start length chunk := by
  unfold touchedChunks Hits
  rw [mem_range'_1]
  have hlo : start / cs ≤ chunk ↔ start < chunk * cs + cs := by
    rw [← Nat.lt_succ_iff, Nat.div_lt_iff_lt_mul hcs, Nat.succ_mul]
  have hhi : chunk ≤ (start + length - 1) / cs ↔ chunk * cs ≤ start + length - 1 :=
    Nat.le_div_iff_mul_le hcs
  have hle : start / cs ≤ (start + length - 1) / cs := Nat.div_le_div_right (by omega)
  omega

theorem lt_chunkEnd_iff (hcs : 0 < cs) {a : Nat} (ha : cs ∣ a) (chunk : Nat) :
    a < chunk * cs + cs ↔ a ≤ chunk * cs := by
  obtain ⟨k, rfl⟩ := ha
  rw [← Nat.succ_mul, Nat.mul_comm cs k, Nat.mul_lt_mul_right hcs, Nat.mul_le_mul_right_iff hcs]
  omega

theorem ExtentMappingRecord.Aligned.end_dvd (h : extent.Aligned cs) : cs ∣ extent.endOffset :=
  Nat.dvd_add h.start_dvd h.length_dvd

theorem ExtentMappingRecord.Aligned.hasChunk_iff (h : extent.Aligned cs) (hcs : 0 < cs) :
    extent.HasChunk cs chunk ↔ extent.logicalOffset / cs ≤ chunk ∧
      chunk < extent.logicalOffset / cs + extent.lengthBytes / cs := by
  obtain ⟨k, hk⟩ := h.start_dvd
  obtain ⟨l, hl⟩ := h.length_dvd
  unfold ExtentMappingRecord.HasChunk ExtentMappingRecord.endOffset
  rw [hk, hl, Nat.mul_div_cancel_left _ hcs, Nat.mul_div_cancel_left _ hcs, ← Nat.mul_add,
    Nat.mul_comm cs k, Nat.mul_le_mul_right_iff hcs, ← Nat.succ_mul, Nat.mul_comm cs,
    Nat.mul_le_mul_right_iff hcs]
  rfl

theorem overlapRange_of_overlaps (h : extent.overlaps off len = true) :
    overlapRange extent off len = .ok (max off extent.logicalOffset,
      min (off + len) extent.endOffset - max off extent.logicalOffset) := by
  have hov := of_decide_eq_true h
  rw [overlapRange, if_neg (by omega)]

theorem overlap_pos (hpos : 0 < extent.lengthBytes) (hlen : 0 < len)
    (h : extent.overlaps off len = true) :
    max off extent.logicalOffset < min (off + len) extent.endOffset := by
  have hov := of_decide_eq_true h
  unfold ExtentMappingRecord.endOffset at *
  omega

/-- Intervals that meet pairwise have a common point. -/
theorem hits_overlap_iff_meets (hpos : 0 < extent.lengthBytes) (hlen : 0 < len)
    (h : extent.overlaps off len = true) :
    Hits cs (max off extent.logicalOffset)
        (min (off + len) extent.endOffset - max off extent.logicalOffset) chunk ↔
      extent.Meets cs off len chunk := by
  have hov := overlap_pos hpos hlen h
  unfold ExtentMappingRecord.Meets Hits
  unfold ExtentMappingRecord.endOffset at hov ⊢
  omega

theorem ExtentMappingRecord.Aligned.meets_iff (ha : extent.Aligned cs) (hcs : 0 < cs) :
    extent.Meets cs off len chunk ↔ extent.Touched cs off len chunk := by
  have hlo := lt_chunkEnd_iff hcs ha.start_dvd chunk
  have hhi := lt_chunkEnd_iff hcs ha.end_dvd chunk
  unfold Meets Touched Hits HasChunk
  unfold endOffset at hhi ⊢
  omega

theorem hits_overlap_iff (hcs : 0 < cs) (ha : extent.Aligned cs) (hlen : 0 < len)
    (h : extent.overlaps off len = true) :
    Hits cs (max off extent.logicalOffset)
        (min (off + len) extent.endOffset - max off extent.logicalOffset) chunk ↔
      Hits cs off len chunk ∧ extent.HasChunk cs chunk :=
  (hits_overlap_iff_meets ha.length_pos hlen h).trans (ha.meets_iff hcs)

theorem overlaps_of_hits (hhit : Hits cs off len chunk) (hin : extent.HasChunk cs chunk) :
    extent.overlaps off len = true := by
  unfold Hits at hhit
  unfold ExtentMappingRecord.HasChunk at hin
  exact decide_eq_true (by omega)

end Chunks

/-! ## Pages that show a chunk map -/

/-- The pages of a plan show the chunk map `entry` and cover the chunks of `need`. -/
structure PlanPages (g : Geometry) (entry : Nat → ChunkEntry) (need : Nat → Prop)
    (pages : List ResolvedAllocationPage) : Prop where
  wf : ∀ p ∈ pages, p.page.WF g
  entryAt_eq : ∀ p ∈ pages, ∀ chunk, g.pageOf chunk = p.page.pageNo →
    p.page.entryAt chunk = entry chunk
  pageOf_eq : ∀ p ∈ pages, ∀ chunk, p.containsChunk chunk = true →
    g.pageOf chunk = p.page.pageNo
  covers : ∀ chunk, need chunk → ∃ p ∈ pages, p.containsChunk chunk = true
  used : ∀ p ∈ pages, ∃ chunk, p.containsChunk chunk = true ∧ need chunk
  nodup : (pages.map (·.page.pageNo)).Nodup

def ChunkEntry.allocation (a : ChunkEntry) : ChunkAllocation :=
  { zero := a.physicalChunkID == 0, physicalChunkID := a.physicalChunkID,
    encryption := a.encryption }

theorem AllocationPageRecord.WF.find?_allocation (h : page.WF g)
    (hpage : g.pageOf chunk = page.pageNo) :
    ∃ e ∈ page.extents,
      page.extents.find? (fun e => decide (e.logicalChunkStart ≤ chunk ∧
        chunk < e.logicalChunkStart + e.chunkCount)) = some e ∧
      e.allocation chunk = (page.entryAt chunk).allocation ∧
      (e.kind == .zero) = ((page.entryAt chunk).physicalChunkID == 0) := by
  obtain ⟨hge, hlt⟩ := g.pageOf_eq_iff.mp hpage
  rw [← h.startChunk_eq] at hge hlt
  obtain ⟨e, he, hfind, -, -, hget⟩ := h.tiles.find?_flatten AllocationExtentRecord.entry hge
    (by rw [h.chunksPerPage_eq]; exact hlt)
  refine ⟨e, he, hfind, ?_⟩
  rw [entryAt, entries, hget, Option.getD_some]
  unfold AllocationExtentRecord.allocation AllocationExtentRecord.entry ChunkEntry.allocation
  rcases h.kinds e he with hkind | ⟨hkind, hpos⟩
  · simp [hkind, ChunkEntry.zero]
  · have hne : (e.physicalChunkStart + (chunk - e.logicalChunkStart) == 0) = false := by
      simp; omega
    simp [hkind, hne]

namespace PlanPages

variable {entry : Nat → ChunkEntry} {need : Nat → Prop} {pages : List ResolvedAllocationPage}

section

variable (h : PlanPages g entry need pages) (hneed : need chunk)

include h hneed

theorem find?_containsChunk : ∃ p ∈ pages, pages.find? (·.containsChunk chunk) = some p ∧
      g.pageOf chunk = p.page.pageNo := by
  obtain ⟨p, hp, hcont⟩ := h.covers chunk hneed
  have hsome : (pages.find? (·.containsChunk chunk)).isSome := find?_isSome.mpr ⟨p, hp, hcont⟩
  obtain ⟨q, hq⟩ := Option.isSome_iff_exists.mp hsome
  have hqmem := mem_of_find?_eq_some hq
  have hqcontains : q.containsChunk chunk = true := by
    simpa using find?_some hq
  exact ⟨q, hqmem, hq, h.pageOf_eq q hqmem chunk hqcontains⟩

theorem logicalChunkAllocationRecord_eq :
    logicalChunkAllocationRecord pages chunk = some (entry chunk).allocation := by
  obtain ⟨p, hp, hfind, hpage⟩ := h.find?_containsChunk hneed
  obtain ⟨e, -, hext, halloc, -⟩ := (h.wf p hp).find?_allocation hpage
  rw [logicalChunkAllocationRecord, hfind]
  dsimp only
  rw [hext, Option.map_some, halloc, h.entryAt_eq p hp chunk hpage]

theorem resolvedAllocationPagesChunkIsZero_eq :
    resolvedAllocationPagesChunkIsZero pages chunk = ((entry chunk).physicalChunkID == 0) := by
  obtain ⟨p, hp, hfind, hpage⟩ := h.find?_containsChunk hneed
  obtain ⟨e, -, hext, -, hzero⟩ := (h.wf p hp).find?_allocation hpage
  rw [resolvedAllocationPagesChunkIsZero, hfind]
  dsimp only
  rw [hext]
  dsimp only
  rw [hzero, h.entryAt_eq p hp chunk hpage]

theorem ne_nil : pages ≠ [] := by
  obtain ⟨p, hp, -⟩ := h.covers chunk hneed
  exact ne_nil_of_mem hp

end

end PlanPages

/-! ## The pages a request resolves to -/

section RequestPages

theorem containsChunk_requestPage (hlen : 0 < len) :
    (requestPage g off len page).containsChunk chunk = true ↔
      Hits g.chunkSizeBytes off len chunk ∧ g.pageOf chunk = page.pageNo := by
  have hmem : chunk ∈ touchedChunks g.chunkSizeBytes off len ↔
      Hits g.chunkSizeBytes off len chunk := mem_touchedChunks g.chunkSizeBytes_pos hlen
  unfold touchedChunks at hmem
  rw [mem_range'_1] at hmem
  have hle : off / g.chunkSizeBytes ≤ (off + len - 1) / g.chunkSizeBytes :=
    Nat.div_le_div_right (by omega)
  rw [← hmem, g.pageOf_eq_iff]
  unfold ResolvedAllocationPage.containsChunk requestPage resolvedAllocationPage
  rw [decide_eq_true_iff]
  dsimp only
  omega

theorem pageOf_mem_requestPageNos (hlen : 0 < len) (hhit : Hits g.chunkSizeBytes off len chunk) :
    g.pageOf chunk ∈ requestPageNos g off len := by
  have hmem := (mem_touchedChunks g.chunkSizeBytes_pos hlen).mpr hhit
  unfold touchedChunks at hmem
  rw [mem_range'_1] at hmem
  have hlo : g.pageOf (off / g.chunkSizeBytes) ≤ g.pageOf chunk := Nat.div_le_div_right hmem.1
  have hhi : g.pageOf chunk ≤ g.pageOf ((off + len - 1) / g.chunkSizeBytes) :=
    Nat.div_le_div_right (by omega)
  rw [requestPageNos, mem_range'_1]
  omega

theorem overlaps_requestPage_iff (hlen : 0 < len) (hwf : page.WF g)
    (hmem : page.pageNo ∈ requestPageNos g off len) (hpos : 0 < extent.lengthBytes) :
    (extent.logicalOffset < (requestPage g off len page).rangeEndChunk * page.chunkSizeBytes ∧
      (requestPage g off len page).rangeStartChunk * page.chunkSizeBytes < extent.endOffset) ↔
      ∃ chunk, (requestPage g off len page).containsChunk chunk = true ∧
        Hits g.chunkSizeBytes extent.logicalOffset extent.lengthBytes chunk := by
  have hcs := g.chunkSizeBytes_pos
  rw [hwf.chunkSizeBytes_eq]
  unfold ResolvedAllocationPage.containsChunk
  have hrange : (requestPage g off len page).rangeStartChunk <
      (requestPage g off len page).rangeEndChunk := by
    have hle : off / g.chunkSizeBytes ≤ (off + len - 1) / g.chunkSizeBytes :=
      Nat.div_le_div_right (by omega)
    rw [requestPageNos, mem_range'_1] at hmem
    have hlo := g.lt_pageOf_succ_mul (off / g.chunkSizeBytes)
    have hhi := g.pageOf_mul_le ((off + len - 1) / g.chunkSizeBytes)
    have hlo' : g.pageOf (off / g.chunkSizeBytes) * g.chunksPerPage ≤
        page.pageNo * g.chunksPerPage := Nat.mul_le_mul_right _ hmem.1
    have hhi' : page.pageNo * g.chunksPerPage ≤
        g.pageOf ((off + len - 1) / g.chunkSizeBytes) * g.chunksPerPage :=
      Nat.mul_le_mul_right _ (by omega)
    have hpos := g.chunksPerPage_pos
    unfold requestPage resolvedAllocationPage
    dsimp only
    omega
  generalize (requestPage g off len page).rangeStartChunk = a at *
  generalize (requestPage g off len page).rangeEndChunk = b at *
  unfold Hits ExtentMappingRecord.endOffset
  simp only [decide_eq_true_iff]
  constructor
  · rintro ⟨hlo, hhi⟩
    have hfirst := Nat.div_mul_le_self extent.logicalOffset g.chunkSizeBytes
    have hlast := Nat.lt_div_mul_add (a := extent.logicalOffset) hcs
    have hlt := (Nat.div_lt_iff_lt_mul hcs).mpr hlo
    rcases Nat.le_total a (extent.logicalOffset / g.chunkSizeBytes) with hle | hle
    · exact ⟨_, ⟨hle, hlt⟩, by omega, hlast⟩
    · have hmul := Nat.mul_le_mul_right g.chunkSizeBytes hle
      exact ⟨a, ⟨le_rfl, hrange⟩, hhi, by omega⟩
  · rintro ⟨chunk, ⟨hlo, hhi⟩, hend, hstart⟩
    have hfirst := Nat.mul_le_mul_right g.chunkSizeBytes hlo
    have hlast := Nat.mul_le_mul_right g.chunkSizeBytes hhi
    rw [Nat.succ_mul] at hlast
    omega

/-- The live pages of a request, cut down to an extent, show the live map there. -/
theorem planPages_live {m : Repository} (hlen : 0 < len) {pages : List AllocationPageRecord}
    (hlive : List.Forall₂ (m.IsLivePage g) (requestPageNos g off len) pages)
    (hpos : 0 < extent.lengthBytes) :
    PlanPages g (m.liveEntry g) (extent.Meets g.chunkSizeBytes off len)
      (overlapAllocationPagesForExtent (pages.map (requestPage g off len)) extent) := by
  have hnos : pages.map (·.pageNo) = requestPageNos g off len :=
    map_eq_of_forall₂ (hlive.imp fun _ _ h => h.pageNo_eq)
  have hpage : ∀ page ∈ pages, m.IsLivePage g page.pageNo page := by
    intro page hp
    obtain ⟨n, -, h⟩ := exists_of_mem_right hlive hp
    exact h.pageNo_eq ▸ h
  rw [overlapAllocationPagesForExtent, if_neg (Nat.ne_of_gt hpos)]
  have hmem : ∀ p ∈ (pages.map (requestPage g off len)).filter fun p =>
      decide (extent.logicalOffset < p.rangeEndChunk * p.page.chunkSizeBytes ∧
        p.rangeStartChunk * p.page.chunkSizeBytes < extent.endOffset),
      ∃ page ∈ pages, requestPage g off len page = p ∧ ∃ chunk,
        (requestPage g off len page).containsChunk chunk = true ∧
        Hits g.chunkSizeBytes extent.logicalOffset extent.lengthBytes chunk := by
    intro p hp
    obtain ⟨hp, hov⟩ := mem_filter.mp hp
    obtain ⟨page, hpg, rfl⟩ := mem_map.mp hp
    have hno : page.pageNo ∈ requestPageNos g off len := hnos ▸ mem_map_of_mem hpg
    exact ⟨page, hpg, rfl, (overlaps_requestPage_iff hlen (hpage page hpg).wf hno hpos).mp
      (of_decide_eq_true hov)⟩
  refine ⟨?_, ?_, ?_, ?_, ?_, ?_⟩
  · intro p hp
    obtain ⟨page, hpg, rfl, -⟩ := hmem p hp
    exact (hpage page hpg).wf
  · intro p hp chunk hchunk
    obtain ⟨page, hpg, rfl, -⟩ := hmem p hp
    exact (hpage page hpg).entryAt_eq chunk hchunk
  · intro p hp chunk hchunk
    obtain ⟨page, hpg, rfl, -⟩ := hmem p hp
    exact ((containsChunk_requestPage hlen).mp hchunk).2
  · rintro chunk ⟨hhit, hin⟩
    have hno : g.pageOf chunk ∈ pages.map (·.pageNo) := hnos ▸ pageOf_mem_requestPageNos hlen hhit
    obtain ⟨page, hpg, hpageNo⟩ := mem_map.mp hno
    have hcont : (requestPage g off len page).containsChunk chunk = true :=
      (containsChunk_requestPage hlen).mpr ⟨hhit, hpageNo.symm⟩
    refine ⟨requestPage g off len page, mem_filter.mpr ⟨mem_map_of_mem hpg, ?_⟩, hcont⟩
    exact decide_eq_true ((overlaps_requestPage_iff hlen (hpage page hpg).wf
      (hnos ▸ mem_map_of_mem hpg) hpos).mpr ⟨chunk, hcont, hin⟩)
  · intro p hp
    obtain ⟨page, hpg, rfl, chunk, hcont, hin⟩ := hmem p hp
    exact ⟨chunk, hcont, ((containsChunk_requestPage hlen).mp hcont).1, hin⟩
  · have hsub := (filter_sublist (l := pages.map (requestPage g off len)) (p := fun p =>
      decide (extent.logicalOffset < p.rangeEndChunk * p.page.chunkSizeBytes ∧
        p.rangeStartChunk * p.page.chunkSizeBytes < extent.endOffset))).map (·.page.pageNo)
    refine hsub.nodup ?_
    rw [map_map]
    have hcomp : ((fun p : ResolvedAllocationPage => p.page.pageNo) ∘ requestPage g off len) =
        (·.pageNo) := rfl
    rw [hcomp, hnos]
    exact nodup_range'

theorem PlanPages.touched {entry : Nat → ChunkEntry} {pages : List ResolvedAllocationPage}
    (h : PlanPages g entry (extent.Meets g.chunkSizeBytes off len) pages)
    (ha : extent.Aligned g.chunkSizeBytes) :
    PlanPages g entry (extent.Touched g.chunkSizeBytes off len) pages := by
  have hsame : extent.Touched g.chunkSizeBytes off len = extent.Meets g.chunkSizeBytes off len :=
    funext fun _ => propext (ha.meets_iff g.chunkSizeBytes_pos).symm
  rwa [hsame]

end RequestPages

end Namrbd
