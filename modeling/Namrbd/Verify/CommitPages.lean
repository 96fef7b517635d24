import Namrbd.Verify.PreparedCommit

/-!
# The pages a commit publishes

Merging a prepared page into the stored one changes the chunks of the touched
ranges and no others (`mergeCommittedAllocationPage_ok`); the ranges are those
the write reports or, for a page that only the bootstrap of a legacy volume
brings in, the chunks the extent mappings cover.
-/

namespace Namrbd

open List Option Repository Result Table

variable {ranges : List AllocationPageChunkRangeRecord}

/-! ## Merging entries -/

theorem mergeEntry_idem (retired : List Nat) (current incoming : ChunkEntry) :
    mergeEntry retired (mergeEntry retired current incoming) incoming =
      mergeEntry retired current incoming := by
  unfold mergeEntry
  split
  · rfl
  split
  · simp [ChunkEntry.zero]
  · split
    · simp [ChunkEntry.zero]
    · next hmem => simp_all

theorem normal_mergeEntry (retired : List Nat) {current incoming : ChunkEntry}
    (hc : current.Normal) (hi : incoming.Normal) : (mergeEntry retired current incoming).Normal := by
  unfold mergeEntry
  split
  · exact hi
  split
  · exact ChunkEntry.normal_zero
  · split
    · exact ChunkEntry.normal_zero
    · exact hc

theorem mergeEntry_zero (retired : List Nat) {incoming : ChunkEntry} (hi : incoming.Normal) :
    mergeEntry retired .zero incoming = incoming := by
  unfold mergeEntry
  by_cases h : incoming.physicalChunkID = 0
  · simp [hi.eq_zero h, ChunkEntry.zero]
  · simp [h]

section MergeRanges

variable (retired : List Nat) {incoming : List ChunkEntry}

section

variable (current : List ChunkEntry) (hlen : incoming.length = current.length)
  (rng : AllocationPageChunkRangeRecord)

include current hlen rng

theorem getElem?_mergeEntriesInRange (i : Nat) :
    (mergeEntriesInRange retired incoming current rng)[i]? =
      if rng.startChunk ≤ i ∧ i < rng.endChunk then
        current[i]?.map fun a => mergeEntry retired a (incoming[i]?.getD .zero)
      else current[i]? := by
  unfold mergeEntriesInRange
  rw [Window.getElem?_foldl_modify (fun i a => mergeEntry retired a (incoming[i]?.getD .zero)) .zero
    nodup_range']
  by_cases hi : i < current.length
  · have hmem : i ∈ range' rng.startChunk
        (min rng.endChunk (min current.length incoming.length) - rng.startChunk) ↔
        rng.startChunk ≤ i ∧ i < rng.endChunk := by
      rw [mem_range'_1]
      omega
    simp only [hmem]
  · rw [getElem?_eq_none (Nat.le_of_not_lt hi)]
    simp

theorem length_mergeEntriesInRange :
    (mergeEntriesInRange retired incoming current rng).length = current.length := by
  refine Nat.le_antisymm (getElem?_eq_none_iff.mp ?_) (getElem?_eq_none_iff.mp ?_)
  · rw [getElem?_mergeEntriesInRange retired current hlen, getElem?_eq_none (Nat.le_refl _)]
    simp
  have hnone := getElem?_mergeEntriesInRange retired current hlen rng
    (mergeEntriesInRange retired incoming current rng).length
  rw [getElem?_eq_none (Nat.le_refl _)] at hnone
  split at hnone
  · exact map_eq_none_iff.mp hnone.symm
  · exact hnone.symm

end

variable {current : List ChunkEntry}

theorem getElem?_foldl_mergeEntriesInRange (pageNo : Nat) (hpage : ∀ r ∈ ranges, r.pageNo = pageNo)
    (hlen : incoming.length = current.length) {i : Nat} {a : ChunkEntry} (ha : current[i]? = some a) :
    (Covers ranges pageNo i → (ranges.foldl (mergeEntriesInRange retired incoming) current)[i]? =
      some (mergeEntry retired a (incoming[i]?.getD .zero))) ∧
    (¬ Covers ranges pageNo i → (ranges.foldl (mergeEntriesInRange retired incoming) current)[i]? =
      some a) := by
  induction ranges generalizing current a with
  | nil => exact ⟨fun h => absurd h (not_covers_nil _ _), fun _ => ha⟩
  | cons r ranges ih =>
    have hr := hpage r mem_cons_self
    have hrest := fun r hr => hpage r (mem_cons_of_mem _ hr)
    have hlen' := length_mergeEntriesInRange retired current hlen r
    have hget := getElem?_mergeEntriesInRange retired current hlen r i
    rw [covers_cons, foldl_cons]
    by_cases hin : r.startChunk ≤ i ∧ i < r.endChunk
    · rw [if_pos hin, ha, map_some] at hget
      obtain ⟨hyes, hno⟩ := ih hrest (by rw [hlen, hlen']) hget
      refine ⟨fun _ => ?_, fun h => absurd (.inl ⟨hr, hin⟩) h⟩
      by_cases hcov : Covers ranges pageNo i
      · rw [hyes hcov, mergeEntry_idem]
      · exact hno hcov
    · rw [if_neg hin, ha] at hget
      obtain ⟨hyes, hno⟩ := ih hrest (by rw [hlen, hlen']) hget
      refine ⟨fun h => hyes ?_, fun h => hno fun hcov => h (.inr hcov)⟩
      rcases h with h | h
      · exact absurd h.2 hin
      · exact h

theorem length_foldl_mergeEntriesInRange (ranges : List AllocationPageChunkRangeRecord)
    (hlen : incoming.length = current.length) :
    (ranges.foldl (mergeEntriesInRange retired incoming) current).length = current.length :=
  foldlRecOn (motive := fun l => l.length = current.length) _ _ rfl fun l hl r _ =>
    (length_mergeEntriesInRange retired l (hlen.trans hl.symm) r).trans hl

end MergeRanges

/-! ## The ranges of a page -/

variable {g : Geometry} {m : Repository} {req : ApplyCommittedWriteEffectsRequest}
  {page : AllocationPageRecord}

/-- The ranges of a page name the page; where the request reports ranges for the page,
they cover the chunks it reports. -/
theorem touchedRanges_of_ok (h : m.touchedAllocationPageChunkRanges req page = .ok ranges) :
    (∀ r ∈ ranges, r.pageNo = page.pageNo) ∧ ∀ r ∈ req.affectedPageChunkRanges,
      r.pageNo = page.pageNo →
      ∀ i, Covers ranges page.pageNo i ↔ Covers req.affectedPageChunkRanges page.pageNo i := by
  unfold touchedAllocationPageChunkRanges at h
  obtain ⟨-, h⟩ := throwIf_eq_ok.mp h
  obtain ⟨found, hfound, h⟩ := bind_eq_ok.mp h
  obtain ⟨-, -, hfound⟩ := bind_eq_ok.mp hfound
  by_cases hnil : req.affectedPageChunkRanges.filter (fun r => r.pageNo = page.pageNo) = []
  · rw [if_pos hnil] at hfound
    cases hfound
    obtain ⟨mappings, -, h⟩ := bind_eq_ok.mp h
    cases h
    refine ⟨forall_mergeRanges (fun last r hlast _ _ => hlast) fun r hr => ?_, fun r hr hno => ?_⟩
    · obtain ⟨e, -, he⟩ := mem_filterMap.mp hr
      unfold extentPageChunkRange at he
      dsimp only at he
      split at he
      · cases he
      split at he
      · cases he
      split at he
      · cases he
        rfl
      · cases he
    · exact absurd (decide_eq_true hno) (filter_eq_nil_iff.mp hnil r hr)
  · rw [if_neg hnil] at hfound
    cases hfound
    cases h
    refine ⟨forall_mergeRanges (fun last r hlast _ _ => hlast) fun r hr => ?_, fun _ _ _ i => ?_⟩
    · simpa using (mem_filter.mp hr).2
    · rw [normalizeAllocationPageChunkRanges, covers_mergeRanges]
      unfold Covers
      simp only [mem_filter, decide_eq_true_iff]
      exact exists_congr fun r => by tauto

theorem touchedRanges_ok (hpage : page.WF g)
    (hwithin : RangesWithin g.chunksPerPage req.affectedPageChunkRanges)
    (hids : ∀ id ∈ req.normalizeExtentMappings, ∃ e, m.getExtentMapping id = .ok e) :
    ∃ ranges, m.touchedAllocationPageChunkRanges req page = .ok ranges := by
  obtain ⟨mappings, hmappings, -⟩ : ∃ mappings,
      req.normalizeExtentMappings.mapM m.getExtentMapping = .ok mappings ∧
      Forall₂ (fun _ _ => True) req.normalizeExtentMappings mappings := by
    refine mapM_ok fun id hid => ?_
    obtain ⟨e, he⟩ := hids id hid
    exact ⟨e, he, trivial⟩
  unfold touchedAllocationPageChunkRanges affectedAllocationPageChunkRanges
  dsimp only
  rw [hpage.invalidGeometry_eq, if_neg Bool.false_ne_true, forM_eq_ok.mpr, ok_bind]
  · split
    · rw [pure_eq_ok, ok_bind, hmappings]
      exact ⟨_, rfl⟩
    · exact ⟨_, rfl⟩
  · intro record hrec
    obtain ⟨hlt, hle⟩ := hwithin record (mem_of_mem_filter hrec)
    rw [hpage.chunksPerPage_eq, if_neg (by omega), if_neg (by omega)]
    rfl

section MergePage

theorem currentPage_wf (hwf : m.PagesWF g) (pageNo : Nat) :
    let current := (get? (·.pageNo) pageNo m.pages).getD
      (zeroAllocationPage pageNo g.pageBytes g.chunkSizeBytes)
    current.WF g ∧ current.pageNo = pageNo ∧ ∀ chunk, g.pageOf chunk = pageNo →
      current.entryAt chunk = nativeEntry g m.pages chunk := by
  cases hget : get? (·.pageNo) pageNo m.pages with
  | some page =>
    refine ⟨hwf page (mem_of_get? hget), key_of_get? hget, fun chunk hchunk => ?_⟩
    rw [nativeEntry_of_get? (hchunk ▸ hget)]
    rfl
  | none =>
    refine ⟨zeroAllocationPage_wf g pageNo, rfl, fun chunk hchunk => ?_⟩
    rw [nativeEntry_of_get?_none (hchunk ▸ hget)]
    exact entryAt_zeroAllocationPage ..

theorem mergeCommittedAllocationPage_of_ok {merged : AllocationPageRecord}
    (hbytes : page.pageBytes = g.pageBytes) (hsize : page.chunkSizeBytes = g.chunkSizeBytes)
    (h : m.mergeCommittedAllocationPage req page = .ok merged) : ∃ current incoming ranges,
      expandAllocationChunkMappingsWithHeaders ((get? (·.pageNo) page.pageNo m.pages).getD
        (zeroAllocationPage page.pageNo page.pageBytes page.chunkSizeBytes)) = .ok current ∧
      expandAllocationChunkMappingsWithHeaders page = .ok incoming ∧
      m.touchedAllocationPageChunkRanges req page = .ok ranges ∧
      current.length = g.chunksPerPage ∧ merged.WF g ∧ merged.pageNo = page.pageNo ∧
      merged.revision = req.committedRevision ∧
      ∀ i < g.chunksPerPage, ∃ a b, current[i]? = some a ∧ incoming[i]? = some b ∧
        (ranges = [] ∨ Covers ranges page.pageNo i →
          merged.entries[i]? = some ((mergeEntry req.retiredPhysicalChunkIDs a b).value 0)) ∧
        (¬ (ranges = [] ∨ Covers ranges page.pageNo i) →
          merged.entries[i]? = some (a.value 0)) := by
  obtain ⟨current, hcur, h⟩ := bind_eq_ok.mp h
  obtain ⟨hsame, h⟩ := throwIf_eq_ok.mp h
  obtain ⟨incoming, hin, h⟩ := bind_eq_ok.mp h
  obtain ⟨ranges, hranges, h⟩ := bind_eq_ok.mp h
  cases h
  rw [not_or, not_not, not_not] at hsame
  have hper : page.chunksPerPage = g.chunksPerPage := by
    rw [AllocationPageRecord.chunksPerPage, hbytes, hsize, Geometry.chunksPerPage]
  have hilen := (length_expandAllocationChunkMappingsWithHeaders hin).2
  have hclen := (length_expandAllocationChunkMappingsWithHeaders hcur).2
  rw [AllocationPageRecord.chunksPerPage, hsame.1, hsame.2] at hclen
  have hlen : incoming.length = current.length := hilen.trans hclen.symm
  rw [hper] at hilen
  obtain ⟨hwf, hents⟩ := entries_compressWith eq_of_beq_headers
    ((length_foldl_mergeEntriesInRange req.retiredPhysicalChunkIDs _ hlen).trans
      (hlen.symm.trans hilen)) page.pageNo req.committedRevision
  rw [← hper, ← hbytes, ← hsize] at hwf hents
  refine ⟨current, incoming, ranges, hcur, hin, hranges, hlen.symm.trans hilen, hwf, rfl, rfl,
    fun i hi => ?_⟩
  have ha := getElem?_eq_getElem (l := current) (i := i) (by omega)
  have hb := getElem?_eq_getElem (l := incoming) (i := i) (by omega)
  have hmerged := congrArg (·[i]?) hents
  rw [getElem?_map] at hmerged
  refine ⟨_, _, ha, hb, ?_⟩
  by_cases hnil : ranges = []
  · -- without ranges the whole page is merged
    have hwhole : Covers [⟨page.pageNo, 0, incoming.length⟩] page.pageNo i :=
      covers_cons.mpr (.inl ⟨rfl, Nat.zero_le i, hilen.symm ▸ hi⟩)
    refine ⟨fun _ => hmerged.trans ?_, fun h => absurd (.inl hnil) h⟩
    rw [if_pos hnil, (getElem?_foldl_mergeEntriesInRange _ page.pageNo (by simp) hlen ha).1 hwhole,
      hb, getD_some, map_some]
  · obtain ⟨hyes, hno⟩ := getElem?_foldl_mergeEntriesInRange req.retiredPhysicalChunkIDs page.pageNo
      (touchedRanges_of_ok hranges).1 hlen ha
    refine ⟨fun hch => hmerged.trans ?_, fun hch => hmerged.trans ?_⟩
    · rw [if_neg hnil, hyes (hch.resolve_left hnil), hb, getD_some, map_some]
    · rw [if_neg hnil, hno (not_or.mp hch).2, map_some]

/-- A stored page after a page of a commit was merged into it: the chunks of `changed`
are merged, the others stay. -/
structure IsMergedPage (g : Geometry) (m : Repository) (req : ApplyCommittedWriteEffectsRequest)
    (changed : Nat → Prop) (page merged : AllocationPageRecord) : Prop where
  wf : merged.WF g
  pageNo_eq : merged.pageNo = page.pageNo
  revision_eq : merged.revision = req.committedRevision
  entryAt_changed : ∀ chunk, g.pageOf chunk = page.pageNo → changed chunk →
    merged.entryAt chunk = mergeEntry req.retiredPhysicalChunkIDs
      (Repository.nativeEntry g m.pages chunk) (page.entryAt chunk)
  entryAt_kept : ∀ chunk, g.pageOf chunk = page.pageNo → ¬ changed chunk →
    merged.entryAt chunk = Repository.nativeEntry g m.pages chunk

/-- A well-formed page can be merged, chunk by chunk. -/
theorem mergeCommittedAllocationPage_ok (hwf : m.PagesWF g) (hpage : page.WF g)
    (hranges : m.touchedAllocationPageChunkRanges req page = .ok ranges) :
    ∃ merged, m.mergeCommittedAllocationPage req page = .ok merged ∧
      IsMergedPage g m req
        (fun chunk => ranges = [] ∨
          Covers ranges page.pageNo (chunk - page.pageNo * g.chunksPerPage)) page merged := by
  obtain ⟨hcwf, hcno, hcentry⟩ := currentPage_wf hwf page.pageNo
  have hok : ∃ merged, m.mergeCommittedAllocationPage req page = .ok merged := by
    unfold mergeCommittedAllocationPage
    rw [hpage.pageBytes_eq, hpage.chunkSizeBytes_eq]
    dsimp only
    rw [hcwf.expandAllocationChunkMappingsWithHeaders_eq, ok_bind, hcwf.pageBytes_eq,
      hcwf.chunkSizeBytes_eq, if_neg (by simp), hpage.expandAllocationChunkMappingsWithHeaders_eq,
      ok_bind, hranges]
    exact ⟨_, rfl⟩
  obtain ⟨merged, hmerge⟩ := hok
  obtain ⟨current, incoming, ranges', hcur, hin, hranges', -, hmwf, hno, hrev, hchunks⟩ :=
    mergeCommittedAllocationPage_of_ok hpage.pageBytes_eq hpage.chunkSizeBytes_eq hmerge
  rw [hpage.pageBytes_eq, hpage.chunkSizeBytes_eq,
    hcwf.expandAllocationChunkMappingsWithHeaders_eq] at hcur
  rw [hpage.expandAllocationChunkMappingsWithHeaders_eq] at hin
  rw [hranges] at hranges'
  cases hcur
  cases hin
  cases hranges'
  -- the chunks of well-formed pages are normal, so that compression changes none of them
  have hchunk : ∀ chunk, g.pageOf chunk = page.pageNo → ∃ b, page.entryAt chunk = b ∧ b.Normal ∧
      (nativeEntry g m.pages chunk).Normal ∧
      (ranges = [] ∨ Covers ranges page.pageNo (chunk - page.pageNo * g.chunksPerPage) →
        merged.entryAt chunk =
          (mergeEntry req.retiredPhysicalChunkIDs (nativeEntry g m.pages chunk) b).value 0) ∧
      (¬ (ranges = [] ∨ Covers ranges page.pageNo (chunk - page.pageNo * g.chunksPerPage)) →
        merged.entryAt chunk = (nativeEntry g m.pages chunk).value 0) := by
    intro chunk hchunk
    obtain ⟨hge, hlt⟩ := g.pageOf_eq_iff.mp hchunk
    have hi : chunk - page.pageNo * g.chunksPerPage < g.chunksPerPage := by omega
    obtain ⟨a, b, ha, hb, hyes, hkept⟩ := hchunks _ hi
    rw [hcwf.getElem?_entries hi, hcwf.startChunk_eq, hcno, Nat.add_sub_cancel' hge,
      hcentry chunk hchunk] at ha
    rw [hpage.getElem?_entries hi, hpage.startChunk_eq, Nat.add_sub_cancel' hge] at hb
    rw [hmwf.getElem?_entries hi, hmwf.startChunk_eq, hno, Nat.add_sub_cancel' hge] at hyes hkept
    cases ha
    cases hb
    refine ⟨_, rfl, hpage.normal_entryAt chunk, ?_, fun h => some.inj (hyes h),
      fun h => some.inj (hkept h)⟩
    rw [← hcentry chunk hchunk]
    exact hcwf.normal_entryAt chunk
  refine ⟨merged, hmerge, hmwf, hno, hrev, fun chunk hpageOf hch => ?_, fun chunk hpageOf hch => ?_⟩
  · obtain ⟨_, rfl, hb, ha, hyes, -⟩ := hchunk chunk hpageOf
    rw [hyes hch, ChunkEntry.value_zero (normal_mergeEntry _ ha hb)]
  · obtain ⟨_, -, -, ha, -, hkept⟩ := hchunk chunk hpageOf
    rw [hkept hch, ChunkEntry.value_zero ha]

def threeChunkPage (first : Nat) : AllocationPageRecord :=
  { pageNo := 0, pageBytes := 12, chunkSizeBytes := 4, revision := 1,
    extents := [{ logicalChunkStart := 0, chunkCount := 3, kind := .data,
                  physicalChunkStart := first }] }

def middleChunkRequest : ApplyCommittedWriteEffectsRequest :=
  { committedRevision := 2, allocationPages := [threeChunkPage 7], normalizeExtentMappings := [],
    mutationOperationID := "", expectedMutationState := .running, affectedExtentIDs := [],
    affectedPageNos := [0], retiredPhysicalChunkIDs := [2], mutationOperation := none,
    affectedPageChunkRanges := [{ pageNo := 0, startChunk := 1, endChunk := 2 }] }

end MergePage

end Namrbd
