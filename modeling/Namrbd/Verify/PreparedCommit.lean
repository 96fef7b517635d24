import Mathlib.Data.List.Dedup
import Namrbd.Verify.FreshChunks

/-!
# What a commit prepares

`prepareAllocationCommit` walks over the pages of a plan and puts the entries of
the touched chunks into them. The pages it hands to the commit show the map of
the plan with the touched chunks replaced (`writeEntry`), the ranges it reports
are the touched chunks, and the ids it retires are those of chunks a
zero-semantic write covers.
-/

namespace Namrbd

open AllocationCommitPageState Function List Option Result Table

variable {entry orig cur : Nat → ChunkEntry} {g : Geometry} {req : WriteRequest} {rev : Nat → Nat}
  {p : ExtentWritePlan} {touched : List Nat} {s : AllocationCommitPageState}
  {origs : (Nat → ChunkEntry) → Prop}
  {acc : List AllocationCommitPageState × List AllocationPageChunkRangeRecord}

/-- What a write makes of the entry of a chunk it touches. -/
def writeEntry (g : Geometry) (req : WriteRequest) (entry : Nat → ChunkEntry) (chunk : Nat) :
    ChunkEntry :=
  if req.skips g chunk then .zero else ⟨(entry chunk).physicalChunkID, none⟩

/-- Where the part of a request in the extent of a plan starts, and how long it is. -/
abbrev partStart (req : WriteRequest) (p : ExtentWritePlan) : Nat :=
  max req.offsetBytes p.extent.logicalOffset

@[inherit_doc partStart]
abbrev partLength (req : WriteRequest) (p : ExtentWritePlan) : Nat :=
  min (req.offsetBytes + req.lengthBytes) p.extent.endOffset - partStart req p

section OnePage

theorem physicalChunkIDForCommittedWrite_eq
    (hp : PlanShows g rev entry req.offsetBytes req.lengthBytes p) {chunk : Nat}
    (htouch : p.extent.Touched g.chunkSizeBytes req.offsetBytes req.lengthBytes chunk)
    (hid : (entry chunk).physicalChunkID ≠ 0) :
    physicalChunkIDForCommittedWrite p chunk = some (entry chunk).physicalChunkID := by
  have hguard : 0 < p.chunkSizeBytes ∧ p.allocationPages ≠ [] :=
    ⟨hp.chunkSizeBytes_eq ▸ g.chunkSizeBytes_pos, hp.pages.ne_nil htouch⟩
  unfold physicalChunkIDForCommittedWrite
  rw [hp.pages.logicalChunkAllocationRecord_eq htouch]
  simp only [if_pos hguard, map_some, getD_some, ChunkEntry.allocation, ne_eq, hid,
    not_false_eq_true, if_true]

/-- The touched chunks that are written have ids in the plan. -/
def WrittenMapped (g : Geometry) (req : WriteRequest) (entry : Nat → ChunkEntry)
    (extent : ExtentMappingRecord) : Prop :=
  ∀ chunk, extent.Touched g.chunkSizeBytes req.offsetBytes req.lengthBytes chunk →
    req.skips g chunk = false → (entry chunk).physicalChunkID ≠ 0

/-- Applying a write to a page gives the touched chunks their planned entries. -/
theorem applyWrite_ok (ha : p.extent.Aligned g.chunkSizeBytes) (hlen : 0 < req.lengthBytes)
    (hov : p.extent.overlaps req.offsetBytes req.lengthBytes = true)
    (hp : PlanShows g rev entry req.offsetBytes req.lengthBytes p)
    (hmapped : WrittenMapped g req entry p.extent) {rev' : Nat → Nat}
    (hs : IsPageState g rev' orig cur s) (cur' : Nat → ChunkEntry)
    (hcur : ∀ chunk, g.pageOf chunk = s.pageNo → cur' chunk =
      if chunk ∈ extentChunks g p.extent req.offsetBytes req.lengthBytes
      then writeEntry g req entry chunk else cur chunk) :
    ∃ s', s.applyWrite p req.zeroSemantic (partStart req p) (partLength req p)
        noEncryptionHeaders = .ok s' ∧
      s'.pageNo = s.pageNo ∧ IsPageState g rev' orig cur' s' := by
  have hpos : 0 < partLength req p := Nat.sub_pos_of_lt (overlap_pos ha.length_pos hlen hov)
  unfold applyWrite
  rw [if_neg (by omega), hs.chunkSizeBytes_eq]
  -- the loop has changed the chunks of the page among those done
  have hloop : ∃ s', (extentChunks g p.extent req.offsetBytes req.lengthBytes).foldlM
      (applyWriteChunk p req.zeroSemantic (partStart req p) (partLength req p)
        noEncryptionHeaders) s = .ok s' ∧
      (s'.pageNo = s.pageNo ∧ IsPageState g rev' orig (fun chunk =>
        if chunk ∈ extentChunks g p.extent req.offsetBytes req.lengthBytes
        then writeEntry g req entry chunk else cur chunk) s') := by
    refine foldlM_ok (fun (done : List Nat) s' => s'.pageNo = s.pageNo ∧
      IsPageState g rev' orig
        (fun chunk => if chunk ∈ done then writeEntry g req entry chunk else cur chunk) s')
      ⟨rfl, hs.congr_cur (by simp)⟩ ?_
    rintro done chunk rest s' hl ⟨hno, hs'⟩
    have htouch : p.extent.Touched g.chunkSizeBytes req.offsetBytes req.lengthBytes chunk :=
      (mem_extentChunks ha hlen hov).mp (by rw [hl]; exact mem_append_right _ mem_cons_self)
    have hupdate : (fun c => if c ∈ done ++ [chunk] then writeEntry g req entry c else cur c) =
        update (fun c => if c ∈ done then writeEntry g req entry c else cur c) chunk
          (writeEntry g req entry chunk) := by
      funext c
      by_cases hc : c = chunk
      · subst hc
        rw [update_self, if_pos (mem_append_right _ mem_cons_self)]
      · simp [hc]
    rw [hupdate]
    unfold applyWriteChunk
    by_cases hin : g.pageOf chunk = s'.pageNo
    · have hcond : (req.zeroSemantic && coversChunk s'.chunkSizeBytes (partStart req p)
          (partLength req p) chunk) = req.skips g chunk := by
        rw [hs'.chunkSizeBytes_eq, coversChunk_overlap htouch.2]
        rfl
      rw [if_neg (hs'.inPage_iff.mpr hin), hcond]
      by_cases hskip : req.skips g chunk = true
      · rw [if_pos hskip, writeEntry, if_pos hskip]
        exact ⟨_, rfl, hno, hs'.setEntry hin _⟩
      have hid := hmapped chunk htouch (Bool.not_eq_true _ ▸ hskip)
      rw [if_neg hskip, physicalChunkIDForCommittedWrite_eq hp htouch hid, writeEntry,
        if_neg hskip]
      exact ⟨_, rfl, hno, hs'.setEntry hin _⟩
    · have hout : chunk < s'.pageStartChunk ∨ s'.pageStartChunk + s'.entries.length ≤ chunk := by
        by_contra hcontra
        exact hin (hs'.inPage_iff.mp hcontra)
      rw [if_pos hout]
      refine ⟨s', rfl, hno, hs'.congr_cur fun c hc => update_of_ne ?_ _ _⟩
      rintro rfl
      exact hin hc
  obtain ⟨s', hrun, hno, hs'⟩ := hloop
  exact ⟨s', hrun, hno, hs'.congr_cur fun chunk hchunk => hcur chunk (hchunk.trans hno)⟩

end OnePage

/-! ## The ranges a page reports -/

/-- The range reported for a page holds the chunks of the page that the write hits. -/
theorem allocationCommitAffectedPageChunkRange_ok {page : AllocationPageRecord} (hwf : page.WF g)
    (ws wl : Nat) (hpos : 0 < wl) :
    ∃ o, allocationCommitAffectedPageChunkRange page ws wl = .ok o ∧
      RangesWithin g.chunksPerPage o.toList ∧
      ∀ n i, Covers o.toList n i ↔
        n = page.pageNo ∧ i < g.chunksPerPage ∧
          Hits g.chunkSizeBytes ws wl (n * g.chunksPerPage + i) := by
  have hcs := g.chunkSizeBytes_pos
  have hbytes : page.pageNo * g.pageBytes =
      page.pageNo * g.chunksPerPage * g.chunkSizeBytes := by
    rw [Nat.mul_assoc, g.chunksPerPage_mul]
  have hpage : g.pageBytes = g.chunksPerPage * g.chunkSizeBytes := g.chunksPerPage_mul.symm
  have hchunk : ∀ i, (page.pageNo * g.chunksPerPage + i) * g.chunkSizeBytes =
      page.pageNo * g.chunksPerPage * g.chunkSizeBytes + i * g.chunkSizeBytes :=
    fun i => Nat.add_mul _ _ _
  have hin : ∀ i, i < g.chunksPerPage →
      i * g.chunkSizeBytes + g.chunkSizeBytes ≤ g.chunksPerPage * g.chunkSizeBytes := by
    intro i hi
    rw [← Nat.succ_mul]
    exact Nat.mul_le_mul_right _ hi
  unfold allocationCommitAffectedPageChunkRange
  rw [if_neg (Nat.ne_of_gt hpos), hwf.invalidGeometry_eq, if_neg Bool.false_ne_true,
    hwf.pageBytes_eq, hwf.chunkSizeBytes_eq, hbytes, hpage]
  generalize hstart : page.pageNo * g.chunksPerPage * g.chunkSizeBytes = start at *
  split
  · next hout =>
    refine ⟨none, rfl, by simp [RangesWithin], fun n i => ?_⟩
    simp only [toList_none, not_covers_nil, false_iff, not_and]
    rintro rfl hi
    have := hin i hi
    unfold Hits
    rw [hchunk]
    omega
  · next hover =>
    -- which chunks the two quotients bound
    have hlo : ∀ i, (max ws start - start) / g.chunkSizeBytes ≤ i ↔
        max ws start - start < i * g.chunkSizeBytes + g.chunkSizeBytes := by
      intro i
      rw [← Nat.lt_succ_iff, Nat.div_lt_iff_lt_mul hcs, Nat.succ_mul]
    have hhi : ∀ i, i < (min (ws + wl) (start + g.chunksPerPage * g.chunkSizeBytes) - start +
        g.chunkSizeBytes - 1) / g.chunkSizeBytes ↔
        i * g.chunkSizeBytes <
          min (ws + wl) (start + g.chunksPerPage * g.chunkSizeBytes) - start := by
      intro i
      rw [← Nat.succ_le_iff, Nat.le_div_iff_mul_le hcs, Nat.succ_mul]
      omega
    refine ⟨_, rfl, ?_, fun n i => ?_⟩
    · intro r hr
      rw [mem_toList, some_inj] at hr
      subst hr
      dsimp only
      constructor
      · rw [hhi]
        have hbytes := Nat.mul_pos g.chunksPerPage_pos hcs
        have hle := Nat.div_mul_le_self (max ws start - start) g.chunkSizeBytes
        omega
      · rw [← Nat.lt_succ_iff, Nat.div_lt_iff_lt_mul hcs, Nat.succ_mul]
        omega
    · rw [toList_some, covers_cons]
      simp only [not_covers_nil, or_false]
      rw [hlo, hhi]
      unfold Hits
      constructor
      · rintro ⟨rfl, hi⟩
        have hlt : i < g.chunksPerPage := by
          by_contra hge
          have := Nat.mul_le_mul_right g.chunkSizeBytes (Nat.le_of_not_lt hge)
          omega
        rw [hchunk]
        exact ⟨rfl, hlt, by omega⟩
      · rintro ⟨rfl, hlt, hi⟩
        have := hin i hlt
        rw [hchunk] at hi
        exact ⟨rfl, by omega⟩

/-! ## The walk over the plan -/

/-- The plan of one extent as a commit walks over it. Its pages show `shown`. After a rebase
they may differ from extent to extent, on chunks of `touched` that other extents write: what
all of them agree on is what becomes of the chunks (`entry`). -/
structure CommitPlan (g : Geometry) (rev : Nat → Nat) (req : WriteRequest)
    (entry : Nat → ChunkEntry) (touched : List Nat) (shown : Nat → ChunkEntry)
    (p : ExtentWritePlan) : Prop where
  aligned : p.extent.Aligned g.chunkSizeBytes
  overlaps : p.extent.overlaps req.offsetBytes req.lengthBytes = true
  shows : PlanShows g rev shown req.offsetBytes req.lengthBytes p
  mapped : WrittenMapped g req shown p.extent
  subset : ∀ chunk ∈ extentChunks g p.extent req.offsetBytes req.lengthBytes, chunk ∈ touched
  written : ∀ chunk ∈ extentChunks g p.extent req.offsetBytes req.lengthBytes,
    writeEntry g req shown chunk = writeEntry g req entry chunk
  kept : ∀ r ∈ p.allocationPages, ∀ chunk, g.pageOf chunk = r.page.pageNo →
    chunk ∉ touched → shown chunk = entry chunk

/-- A page state when the chunks of `done` have been put in; it was opened from one of the
maps of `origs`. -/
def WalkState (g : Geometry) (rev : Nat → Nat) (req : WriteRequest) (entry : Nat → ChunkEntry)
    (touched : List Nat) (origs : (Nat → ChunkEntry) → Prop) (done : List Nat)
    (s : AllocationCommitPageState) : Prop :=
  ∃ orig cur, origs orig ∧ IsPageState g rev orig cur s ∧
    ∀ chunk, g.pageOf chunk = s.pageNo →
      (chunk ∈ done → cur chunk = writeEntry g req entry chunk) ∧
        (chunk ∉ touched → cur chunk = entry chunk)

/-- The page states and ranges when the chunks of `done` have been put in. -/
structure PreparedStates (g : Geometry) (rev : Nat → Nat) (req : WriteRequest)
    (entry : Nat → ChunkEntry) (touched : List Nat) (origs : (Nat → ChunkEntry) → Prop)
    (done : List Nat)
    (acc : List AllocationCommitPageState × List AllocationPageChunkRangeRecord) : Prop where
  shows : ∀ pageNo s, Table.get? (·.pageNo) pageNo acc.1 = some s →
    WalkState g rev req entry touched origs done s
  hasState_iff : ∀ n, HasState acc.1 n ↔ ∃ chunk ∈ done, g.pageOf chunk = n
  sorted : Table.Sorted (·.pageNo) acc.1
  within : RangesWithin g.chunksPerPage acc.2
  covers_iff : ∀ n i, Covers acc.2 n i ↔ i < g.chunksPerPage ∧ n * g.chunksPerPage + i ∈ done

section Walk

variable {shown : Nat → ChunkEntry} {done : List Nat}

theorem PreparedStates.congr (h : PreparedStates g rev req entry touched origs done acc)
    {done' : List Nat} (heq : ∀ chunk, chunk ∈ done ↔ chunk ∈ done') :
    PreparedStates g rev req entry touched origs done' acc := by
  refine ⟨?_, ?_, h.sorted, h.within, ?_⟩
  · simpa only [WalkState, heq] using h.shows
  · simpa only [heq] using h.hasState_iff
  · simpa only [heq] using h.covers_iff

/-- Preparing one more page of a plan keeps what is known of the prepared states. -/
theorem prepareCommitPage_ok (hlen : 0 < req.lengthBytes)
    (hplan : CommitPlan g rev req entry touched shown p) (horig : origs shown)
    (hacc : PreparedStates g rev req entry touched origs done acc)
    {r : ResolvedAllocationPage} (hr : r ∈ p.allocationPages) :
    ∃ acc', prepareCommitPage req p noEncryptionHeaders (partStart req p) (partLength req p) acc r =
        .ok acc' ∧
      PreparedStates g rev req entry touched origs
        (done ++ (extentChunks g p.extent req.offsetBytes req.lengthBytes).filter fun chunk =>
          g.pageOf chunk = r.page.pageNo) acc' := by
  have ha := hplan.aligned
  have hov := hplan.overlaps
  have hp := hplan.shows
  have hpos : 0 < partLength req p := Nat.sub_pos_of_lt (overlap_pos ha.length_pos hlen hov)
  -- the state of the page, found or opened
  have hopen : ∃ s, (get? (·.pageNo) r.page.pageNo acc.1 = some s ∨
        (get? (·.pageNo) r.page.pageNo acc.1 = none ∧
          newAllocationCommitPageState r.page = .ok s)) ∧
      s.pageNo = r.page.pageNo ∧ WalkState g rev req entry touched origs done s := by
    cases hget : get? (·.pageNo) r.page.pageNo acc.1 with
    | some s => exact ⟨s, .inl rfl, key_of_get? hget, hacc.shows _ _ hget⟩
    | none =>
      obtain ⟨s, hs, hno, hstate⟩ := newAllocationCommitPageState_ok (hp.pages.wf r hr)
        (hp.pages.entryAt_eq r hr) (hp.revision_eq r hr)
      refine ⟨s, .inr ⟨rfl, hs⟩, hno, shown, shown, horig, hstate, fun chunk hchunk => ⟨?_, ?_⟩⟩
      · -- a chunk done on this page would have opened it
        intro hmem
        have hhas := (hacc.hasState_iff r.page.pageNo).mpr ⟨chunk, hmem, hchunk.trans hno⟩
        rw [HasState, hget] at hhas
        cases hhas
      · exact hplan.kept r hr chunk (hchunk.trans hno)
  obtain ⟨s, hs, hno, orig, cur, horigs, hstate, hcur⟩ := hopen
  obtain ⟨o, ho, hwithin, hcovers⟩ :=
    allocationCommitAffectedPageChunkRange_ok (hp.pages.wf r hr) (partStart req p)
      (partLength req p) (by omega)
  obtain ⟨s', hs', hno', hstate'⟩ := applyWrite_ok ha hlen hov hp hplan.mapped hstate
    (fun chunk => if chunk ∈ extentChunks g p.extent req.offsetBytes req.lengthBytes
      then writeEntry g req shown chunk else cur chunk) (fun _ _ => rfl)
  have hpageNo : s'.pageNo = r.page.pageNo := hno'.trans hno
  -- chunks added lie on this page
  have hadded : ∀ chunk, chunk ∈ (extentChunks g p.extent req.offsetBytes req.lengthBytes).filter
      (fun chunk => g.pageOf chunk = r.page.pageNo) ↔
      p.extent.Touched g.chunkSizeBytes req.offsetBytes req.lengthBytes chunk ∧
        g.pageOf chunk = r.page.pageNo := by
    intro chunk
    rw [mem_filter, mem_extentChunks ha hlen hov, decide_eq_true_iff]
  refine ⟨(put (·.pageNo) s' acc.1, acc.2 ++ o.toList), ?_, ⟨?_, ?_, ?_, ?_, ?_⟩⟩
  · unfold prepareCommitPage
    rcases hs with hget | ⟨hget, hnew⟩
    · simp only [hget, pure_eq_ok, ok_bind, ho, hs']
    · simp only [hget, hnew, pure_eq_ok, ok_bind, ho, hs']
  · intro pageNo t hget
    rw [get?_put] at hget
    split at hget
    · cases hget
      refine ⟨orig, _, horigs, hstate', fun chunk hchunk => ⟨fun hmem => ?_, fun hmem => ?_⟩⟩
      · split
        · next hx => exact hplan.written chunk hx
        · next hx =>
          rcases mem_append.mp hmem with hd | hf
          · exact (hcur chunk (hchunk.trans hno')).1 hd
          · exact absurd (mem_of_mem_filter hf) hx
      · rw [if_neg fun hx => hmem (hplan.subset chunk hx)]
        exact (hcur chunk (hchunk.trans hno')).2 hmem
    · -- the chunks added lie on another page
      next hne =>
      obtain ⟨orig, cur, horigs, hstate, hcur⟩ := hacc.shows pageNo t hget
      have hkey : t.pageNo = pageNo := key_of_get? hget
      refine ⟨orig, cur, horigs, hstate, fun chunk hchunk => ⟨fun hmem => ?_, (hcur chunk hchunk).2⟩⟩
      rcases mem_append.mp hmem with hd | hf
      · exact (hcur chunk hchunk).1 hd
      · exact absurd (hpageNo.trans (((hadded chunk).mp hf).2.symm.trans (hchunk.trans hkey))) hne
  · intro n
    rw [hasState_put, hacc.hasState_iff]
    simp only [mem_append, hadded]
    constructor
    · rintro (hn | ⟨chunk, hmem, hchunk⟩)
      · obtain ⟨chunk, hcont, htouch⟩ := hp.pages.used r hr
        have hpage := hp.pages.pageOf_eq r hr chunk hcont
        exact ⟨chunk, .inr ⟨htouch, hpage⟩, hpage.trans (hpageNo.symm.trans hn)⟩
      · exact ⟨chunk, .inl hmem, hchunk⟩
    · rintro ⟨chunk, hmem | ⟨-, hpage⟩, hchunk⟩
      · exact .inr ⟨chunk, hmem, hchunk⟩
      · exact .inl (hpageNo.trans (hpage.symm.trans hchunk))
  · exact hacc.sorted.put s'
  · exact forall_mem_append.mpr ⟨hacc.within, hwithin⟩
  · intro n i
    have hsplit : Covers (acc.2 ++ o.toList) n i ↔ Covers acc.2 n i ∨ Covers o.toList n i := by
      unfold Covers
      simp only [mem_append, or_and_right, exists_or]
    rw [hsplit, hacc.covers_iff, hcovers, mem_append, hadded,
      hits_overlap_iff g.chunkSizeBytes_pos ha hlen hov]
    constructor
    · rintro (⟨hi, hmem⟩ | ⟨rfl, hi, htouch⟩)
      · exact ⟨hi, .inl hmem⟩
      · exact ⟨hi, .inr ⟨htouch, pageOf_page_chunk g (Nat.le_add_right _ _) (by omega)⟩⟩
    rintro ⟨hi, hmem | ⟨htouch, hpage⟩⟩
    · exact .inl ⟨hi, hmem⟩
    · have hn : g.pageOf (n * g.chunksPerPage + i) = n :=
        pageOf_page_chunk g (Nat.le_add_right _ _) (by omega)
      exact .inr ⟨hn.symm.trans hpage, hi, htouch⟩

/-- Preparing the pages of an extent. -/
theorem prepareCommitExtent_ok (hlen : 0 < req.lengthBytes)
    (hreq : req.chunkSizeBytes = g.chunkSizeBytes)
    (hplan : CommitPlan g rev req entry touched shown p) (horig : origs shown)
    (hacc : PreparedStates g rev req entry touched origs done acc) :
    ∃ acc', prepareCommitExtent req acc p noEncryptionHeaders = .ok acc' ∧
      PreparedStates g rev req entry touched origs
        (done ++ extentChunks g p.extent req.offsetBytes req.lengthBytes) acc' := by
  have ha := hplan.aligned
  have hov := hplan.overlaps
  have hp := hplan.shows
  have hpos := overlap_pos ha.length_pos hlen hov
  obtain ⟨chunk, htouch⟩ := exists_touched ha hlen hov
  have hguard : ¬ (p.chunkSizeBytes = 0 ∨ p.allocationPages = []) :=
    not_or.mpr ⟨hp.chunkSizeBytes_eq ▸ g.chunkSizeBytes_pos.ne', hp.pages.ne_nil htouch⟩
  unfold prepareCommitExtent
  rw [if_neg hguard, overlapRange_of_overlaps hov]
  dsimp only
  rw [if_neg (by omega), if_neg (by rw [hp.chunkSizeBytes_eq, hreq]; simp)]
  obtain ⟨acc', hrun, hacc'⟩ := foldlM_ok
    (fun (pages : List ResolvedAllocationPage) acc => PreparedStates g rev req entry touched origs
      (done ++ (extentChunks g p.extent req.offsetBytes req.lengthBytes).filter fun chunk =>
        g.pageOf chunk ∈ pages.map (·.page.pageNo)) acc)
    (f := prepareCommitPage req p noEncryptionHeaders (partStart req p) (partLength req p))
    (l := p.allocationPages) (b := acc)
    (hacc.congr (by simp)) (by
      intro pages r rest acc' hl hacc'
      have hr : r ∈ p.allocationPages := by
        rw [hl]; exact mem_append_right _ mem_cons_self
      obtain ⟨acc'', hstep, hacc''⟩ := prepareCommitPage_ok hlen hplan horig hacc' hr
      refine ⟨acc'', hstep, hacc''.congr fun chunk => ?_⟩
      simp only [mem_append, mem_filter, map_append, map_cons, map_nil,
        mem_singleton, decide_eq_true_iff]
      tauto)
  refine ⟨acc', hrun, hacc'.congr fun chunk => ?_⟩
  -- every touched chunk lies on a page of the plan
  have hall : chunk ∈ extentChunks g p.extent req.offsetBytes req.lengthBytes →
      g.pageOf chunk ∈ p.allocationPages.map (·.page.pageNo) := by
    intro hmem
    obtain ⟨r, hr, hcont⟩ := hp.pages.covers chunk ((mem_extentChunks ha hlen hov).mp hmem)
    rw [hp.pages.pageOf_eq r hr chunk hcont]
    exact mem_map_of_mem hr
  simp only [mem_append, mem_filter, decide_eq_true_iff]
  exact or_congr_right ⟨fun h => h.1, fun h => ⟨h, hall h⟩⟩

end Walk

/-! ## The prepared commit -/

/-- What a write hands to the commit when its pages show `entry` and it touches the
chunks of `touched`. -/
structure IsAllocationCommit (g : Geometry) (rev : Nat → Nat) (req : WriteRequest)
    (entry : Nat → ChunkEntry) (touched : List Nat) (alloc : AllocationCommit) : Prop where
  wf : ∀ page ∈ alloc.pages, page.WF g
  sorted : Table.Sorted (·.pageNo) alloc.pages
  pageNo_iff : ∀ n, (∃ page ∈ alloc.pages, page.pageNo = n) ↔ ∃ chunk ∈ touched, g.pageOf chunk = n
  entryAt_eq : ∀ page ∈ alloc.pages, ∀ chunk, g.pageOf chunk = page.pageNo →
    page.entryAt chunk = if chunk ∈ touched then writeEntry g req entry chunk else entry chunk
  revision_eq : ∀ page ∈ alloc.pages, page.revision = rev page.pageNo
  within : RangesWithin g.chunksPerPage alloc.affectedPageChunkRanges
  covers_iff : ∀ n i, Covers alloc.affectedPageChunkRanges n i ↔
    i < g.chunksPerPage ∧ n * g.chunksPerPage + i ∈ touched

/-- The commit retires the chunks of `entry` that a zero-semantic write covers. -/
def RetiresCovered (g : Geometry) (req : WriteRequest) (entry : Nat → ChunkEntry)
    (touched : List Nat) (alloc : AllocationCommit) : Prop :=
  ∀ id, id ∈ alloc.retiredPhysicalChunkIDs ↔ id ≠ 0 ∧
    ∃ chunk ∈ touched, req.skips g chunk = true ∧ (entry chunk).physicalChunkID = id

section Prepared

theorem mem_retiredPhysicalChunkIDs (hs : IsPageState g rev orig cur s) {id : Nat} :
    id ∈ s.retiredPhysicalChunkIDs ↔ id ≠ 0 ∧ ∃ chunk, g.pageOf chunk = s.pageNo ∧
      (orig chunk).physicalChunkID = id ∧ (cur chunk).physicalChunkID ≠ id := by
  unfold retiredPhysicalChunkIDs
  rw [hs.original_eq, hs.entries_eq, if_neg (by simp), mem_dedup, mem_filterMap]
  unfold Window.window
  rw [zip_map']
  simp only [List.mem_map, mem_range, exists_exists_and_eq_and]
  constructor
  · rintro ⟨i, hi, hsome⟩
    split at hsome
    · cases hsome
    next hne =>
    cases hsome
    refine ⟨fun h => hne (.inl h), s.pageNo * g.chunksPerPage + i,
      pageOf_page_chunk g (Nat.le_add_right _ _) (by omega), rfl, fun h => hne (.inr h.symm)⟩
  · rintro ⟨hne, chunk, hpage, rfl, hcur⟩
    obtain ⟨hge, hlt⟩ := g.pageOf_eq_iff.mp hpage
    refine ⟨chunk - s.pageNo * g.chunksPerPage, by omega, ?_⟩
    rw [Nat.add_sub_cancel' hge, if_neg (by
      rintro (h | h)
      · exact hne h
      · exact hcur h.symm)]

section

variable (h : PreparedStates g rev req entry touched origs touched acc)

include h

theorem PreparedStates.isPageState (hs : s ∈ acc.1) : ∃ orig, origs orig ∧ IsPageState g rev orig
      (fun chunk => if chunk ∈ touched then writeEntry g req entry chunk else entry chunk) s := by
  obtain ⟨orig, cur, horig, hstate, hcur⟩ := h.shows _ _ (h.sorted.get?_of_mem hs)
  refine ⟨orig, horig, hstate.congr_cur fun chunk hchunk => ?_⟩
  split
  · next hmem => exact ((hcur chunk hchunk).1 hmem).symm
  · next hmem => exact ((hcur chunk hchunk).2 hmem).symm

/-- The states, once all extents are prepared, are the commit of the write. -/
theorem PreparedStates.toCommit (hnormal : ∀ chunk, chunk ∉ touched → (entry chunk).Normal) :
    IsAllocationCommit g rev req entry touched {
      pages := acc.1.map (·.toRecord)
      retiredPhysicalChunkIDs := uniqueSortedUint64s (acc.1.flatMap (·.retiredPhysicalChunkIDs))
      affectedPageChunkRanges := mergeAllocationCommitPageChunkRanges acc.2 } := by
  have hcur : ∀ chunk, (if chunk ∈ touched then writeEntry g req entry chunk
      else entry chunk).Normal := by
    intro chunk
    split
    · unfold writeEntry
      split
      · exact ChunkEntry.normal_zero
      · exact ChunkEntry.normal_of_none _
    · next hmem => exact hnormal chunk hmem
  have hrec : ∀ page ∈ acc.1.map (·.toRecord), ∃ s orig, s ∈ acc.1 ∧ s.toRecord = page ∧
      IsPageState g rev orig
        (fun chunk => if chunk ∈ touched then writeEntry g req entry chunk else entry chunk) s := by
    intro page hpage
    obtain ⟨s, hs, rfl⟩ := mem_map.mp hpage
    obtain ⟨orig, -, hstate⟩ := h.isPageState hs
    exact ⟨s, orig, hs, rfl, hstate⟩
  refine ⟨?_, ?_, ?_, ?_, ?_, forall_mergeRanges (fun _ _ hlast hr hlt =>
    ⟨Nat.lt_trans hlast.1 hlt, hr.2⟩) h.within, ?_⟩
  · intro page hpage
    obtain ⟨s, orig, -, rfl, hstate⟩ := hrec page hpage
    exact (hstate.toRecord_wf fun chunk _ => hcur chunk).1
  · exact pairwise_map.mpr h.sorted
  · intro n
    rw [← h.hasState_iff]
    constructor
    · rintro ⟨page, hpage, rfl⟩
      obtain ⟨s, hs, rfl⟩ := mem_map.mp hpage
      have hget : get? (·.pageNo) s.pageNo acc.1 = some s := h.sorted.get?_of_mem hs
      exact isSome_iff_exists.mpr ⟨s, hget⟩
    · intro hhas
      obtain ⟨s, hget⟩ := isSome_iff_exists.mp hhas
      have hno : s.pageNo = n := key_of_get? hget
      exact ⟨s.toRecord, mem_map_of_mem (mem_of_get? hget), hno⟩
  · intro page hpage chunk hchunk
    obtain ⟨s, orig, -, rfl, hstate⟩ := hrec page hpage
    exact (hstate.toRecord_wf fun chunk _ => hcur chunk).2 chunk hchunk
  · intro page hpage
    obtain ⟨s, orig, -, rfl, hstate⟩ := hrec page hpage
    exact hstate.revision_eq
  · intro n i
    rw [mergeAllocationCommitPageChunkRanges, covers_mergeRanges]
    exact h.covers_iff n i

/-- When all pages were opened from `entry`, the commit retires what the write covers there. -/
theorem PreparedStates.retiresCovered (horigs : ∀ orig, origs orig → orig = entry)
    (pages : List AllocationPageRecord) (ranges : List AllocationPageChunkRangeRecord) :
    RetiresCovered g req entry touched {
      pages := pages
      retiredPhysicalChunkIDs := uniqueSortedUint64s (acc.1.flatMap (·.retiredPhysicalChunkIDs))
      affectedPageChunkRanges := ranges } := by
  have hstate : ∀ s ∈ acc.1, IsPageState g rev entry
      (fun chunk => if chunk ∈ touched then writeEntry g req entry chunk else entry chunk) s := by
    intro s hs
    obtain ⟨orig, horig, hstate⟩ := h.isPageState hs
    exact horigs orig horig ▸ hstate
  intro id
  rw [mem_uniqueSortedUint64s, mem_flatMap]
  refine and_congr_right fun hne => ⟨?_, ?_⟩
  · rintro ⟨s, hs, hid⟩
    obtain ⟨-, chunk, -, horig, hdiff⟩ := (mem_retiredPhysicalChunkIDs (hstate s hs)).mp hid
    by_cases hmem : chunk ∈ touched
    · rw [if_pos hmem] at hdiff
      refine ⟨chunk, hmem, ?_, horig⟩
      by_contra hskip
      rw [writeEntry, if_neg hskip] at hdiff
      exact hdiff horig
    · rw [if_neg hmem] at hdiff
      exact absurd horig hdiff
  · rintro ⟨chunk, hmem, hskip, horig⟩
    obtain ⟨s, hget⟩ := isSome_iff_exists.mp ((h.hasState_iff _).mpr ⟨chunk, hmem, rfl⟩)
    have hno : s.pageNo = g.pageOf chunk := key_of_get? hget
    refine ⟨s, mem_of_get? hget, (mem_retiredPhysicalChunkIDs
      (hstate s (mem_of_get? hget))).mpr ⟨hne, chunk, hno.symm, horig, ?_⟩⟩
    rw [if_pos hmem, writeEntry, if_pos hskip]
    exact Ne.symm hne

end

def touchedChunkList (g : Geometry) (req : WriteRequest) (exec : WriteExecution) : List Nat :=
  exec.extents.flatMap fun status =>
    extentChunks g status.plan.extent req.offsetBytes req.lengthBytes

/-- A write whose plans show their pages can be prepared. -/
theorem prepareAllocationCommit_ok (rev : Nat → Nat) (entry : Nat → ChunkEntry)
    (hpageBytes : req.pageBytes = g.pageBytes) (hchunkSize : req.chunkSizeBytes = g.chunkSizeBytes)
    (hlen : 0 < req.lengthBytes) {exec : WriteExecution}
    (hnormal : ∀ chunk, chunk ∉ touchedChunkList g req exec → (entry chunk).Normal)
    (shown : ExtentWritePlan → Nat → ChunkEntry)
    (hplan : ∀ status ∈ exec.extents, CommitPlan g rev req entry (touchedChunkList g req exec)
      (shown status.plan) status.plan) :
    ∃ alloc, prepareAllocationCommit exec req = .ok alloc ∧
      IsAllocationCommit g rev req entry (touchedChunkList g req exec) alloc ∧
      ((∀ status ∈ exec.extents, shown status.plan = entry) →
        RetiresCovered g req entry (touchedChunkList g req exec) alloc) := by
  unfold prepareAllocationCommit
  rw [hpageBytes, hchunkSize, g.invalidGeometry_eq, if_neg Bool.false_ne_true]
  obtain ⟨acc, hrun, hacc⟩ := foldlM_ok
    (fun (done : List ExtentWriteStatus) acc => PreparedStates g rev req entry
      (touchedChunkList g req exec)
      (fun orig => ∃ status ∈ exec.extents, shown status.plan = orig)
      (done.flatMap fun status =>
        extentChunks g status.plan.extent req.offsetBytes req.lengthBytes) acc)
    (f := fun acc extent => prepareCommitExtent req acc extent.plan noEncryptionHeaders)
    (l := exec.extents) (b := ([], []))
    ⟨fun _ _ h => (by cases h), by simp [HasState], List.Pairwise.nil, by simp [RangesWithin],
      by simp⟩ (by
      intro done status rest acc hl hacc
      have hmem : status ∈ exec.extents := by
        rw [hl]; exact mem_append_right _ mem_cons_self
      obtain ⟨acc', hstep, hacc'⟩ := prepareCommitExtent_ok hlen hchunkSize
        (hplan status hmem) ⟨status, hmem, rfl⟩ hacc
      refine ⟨acc', hstep, ?_⟩
      rw [flatMap_append, flatMap_cons, flatMap_nil, append_nil]
      exact hacc')
  rw [hrun]
  refine ⟨_, rfl, hacc.toCommit hnormal, fun hshown => hacc.retiresCovered ?_ _ _⟩
  rintro orig ⟨status, hstat, rfl⟩
  exact hshown status hstat

end Prepared

end Namrbd
