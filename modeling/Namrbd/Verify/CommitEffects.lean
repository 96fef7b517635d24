import Namrbd.Verify.CommitPages

/-!
# The effects of a commit

The pages and extent mappings after a commit. In every mode the touched chunks
take the entries of the write and the extents keep their layout; the commits
that merge pages and the one that replaces them differ only in what they check
and in what becomes of a chunk that changed since the plan was made. Merges for
different chunks may come in any order (`effects_in_any_order`).
-/

namespace Namrbd

open List Repository Table

variable {pages : List AllocationPageRecord} {g : Geometry} {m : Repository}
  {req : ApplyCommittedWriteEffectsRequest}

section Persist

/-- The chunks that a page request with these ranges changes. -/
def ChangedIn (g : Geometry) (ranges : List AllocationPageChunkRangeRecord)
    (page : AllocationPageRecord) (chunk : Nat) : Prop :=
  ranges = [] ∨ Covers ranges page.pageNo (chunk - page.pageNo * g.chunksPerPage)

/-- The stored pages once the incoming ones are merged. -/
structure IsMergedPages (g : Geometry) (m : Repository) (req : ApplyCommittedWriteEffectsRequest)
    (changed : AllocationPageRecord → Nat → Prop) (incoming stored : List AllocationPageRecord) :
    Prop where
  wf : ∀ page ∈ stored, page.WF g
  merged : ∀ page ∈ incoming, ∃ merged, Table.get? (·.pageNo) page.pageNo stored = some merged ∧
    IsMergedPage g m req (changed page) page merged
  other : ∀ n, (∀ page ∈ incoming, page.pageNo ≠ n) →
    Table.get? (·.pageNo) n stored = Table.get? (·.pageNo) n m.pages

/-- Pages of one geometry can be merged, and nothing else changes. -/
theorem persistCommittedAllocationPages_ok (hwf : m.PagesWF g)
    (hpages : ∀ page ∈ req.allocationPages, page.WF g)
    (hdist : req.allocationPages.Pairwise fun a b => a.pageNo ≠ b.pageNo)
    (ranges : AllocationPageRecord → List AllocationPageChunkRangeRecord)
    (hranges : ∀ page ∈ req.allocationPages,
      m.touchedAllocationPageChunkRanges req page = .ok (ranges page)) :
    ∃ stored, m.persistCommittedAllocationPages req = .ok { m with pages := stored } ∧
      IsMergedPages g m req (fun page => ChangedIn g (ranges page) page) req.allocationPages
        stored := by
  have hloop : ∃ m', m.persistCommittedAllocationPages req = .ok m' ∧
      (m' = { m with pages := m'.pages } ∧
        IsMergedPages g m req (fun page => ChangedIn g (ranges page) page) req.allocationPages
          m'.pages) := by
    refine Result.foldlM_ok (fun (done : List AllocationPageRecord) (m' : Repository) =>
      m' = { m with pages := m'.pages } ∧
        IsMergedPages g m req (fun page => ChangedIn g (ranges page) page) done m'.pages)
      ⟨rfl, hwf, by simp, fun _ _ => rfl⟩ ?_
    rintro done page rest m' hl ⟨hm', hinv⟩
    have hpage : page ∈ req.allocationPages := by
      rw [hl]; exact mem_append_right _ mem_cons_self
    -- this page has not been stored by the loop before
    have hnew : ∀ q ∈ done, q.pageNo ≠ page.pageNo := by
      rw [hl] at hdist
      exact fun q hq => (pairwise_append.mp hdist).2.2 q hq page mem_cons_self
    have hstored : get? (·.pageNo) page.pageNo m'.pages =
        get? (·.pageNo) page.pageNo m.pages := hinv.other _ hnew
    have hexts : m'.getExtentMapping = m.getExtentMapping := by rw [hm']; rfl
    obtain ⟨merged, hmerge, hmerged⟩ := mergeCommittedAllocationPage_ok hinv.wf (hpages page hpage)
      (by rw [touchedAllocationPageChunkRanges, hexts]; exact hranges page hpage)
    have hnat : ∀ chunk, g.pageOf chunk = page.pageNo →
        nativeEntry g m'.pages chunk = nativeEntry g m.pages chunk := by
      intro chunk hchunk
      rw [nativeEntry, nativeEntry, hchunk, hstored]
    have hmerged' : IsMergedPage g m req (ChangedIn g (ranges page) page) page merged :=
      ⟨hmerged.wf, hmerged.pageNo_eq, hmerged.revision_eq,
        fun chunk hchunk hch => (hmerged.entryAt_changed chunk hchunk hch).trans
          (by rw [hnat chunk hchunk]),
        fun chunk hchunk hch => (hmerged.entryAt_kept chunk hchunk hch).trans (hnat chunk hchunk)⟩
    refine ⟨m'.putAllocationPage merged, by rw [hmerge]; rfl, ?_, ?_, ?_, ?_⟩
    · rw [putAllocationPage, hm']
    · intro q hq
      rcases mem_put hq with rfl | hq
      · exact hmerged.wf
      · exact hinv.wf q hq
    · intro q hq
      rcases mem_append.mp hq with hq | hq
      · obtain ⟨qm, hget, hqm⟩ := hinv.merged q hq
        refine ⟨qm, ?_, hqm⟩
        rw [putAllocationPage, get?_put_of_ne, hget]
        rw [hmerged.pageNo_eq]
        exact Ne.symm (hnew q hq)
      · rw [mem_singleton.mp hq]
        refine ⟨merged, ?_, hmerged'⟩
        rw [putAllocationPage, ← hmerged.pageNo_eq]
        exact get?_put_self merged m'.pages
    · intro n hn
      have hne : merged.pageNo ≠ n := by
        rw [hmerged.pageNo_eq]
        exact hn page (mem_append_right _ mem_cons_self)
      rw [putAllocationPage, get?_put_of_ne hne]
      exact hinv.other n fun q hq => hn q (mem_append_left _ hq)
  obtain ⟨m', hrun, hm', hinv⟩ := hloop
  exact ⟨m'.pages, by rw [hrun, ← hm'], hinv⟩

end Persist

section Order

/-- The request reports the chunks of its pages that it touches. -/
structure ReportsChunks (g : Geometry) (m : Repository) (req : ApplyCommittedWriteEffectsRequest) :
    Prop where
  wf : ∀ page ∈ req.allocationPages, page.WF g
  distinct : req.allocationPages.Pairwise fun a b => a.pageNo ≠ b.pageNo
  reported : ∀ page ∈ req.allocationPages, ∃ r ∈ req.affectedPageChunkRanges,
    r.pageNo = page.pageNo
  within : RangesWithin g.chunksPerPage req.affectedPageChunkRanges
  extents : ∀ id ∈ req.normalizeExtentMappings, ∃ e, m.getExtentMapping id = .ok e

open Classical in
/-- What the pages of the request make of the entry of a chunk. -/
noncomputable def mergeChunk (g : Geometry) (req : ApplyCommittedWriteEffectsRequest) (chunk : Nat)
    (entry : ChunkEntry) : ChunkEntry :=
  let pageNo := g.pageOf chunk
  if Covers req.affectedPageChunkRanges pageNo (chunk - pageNo * g.chunksPerPage) then
    ((get? (·.pageNo) pageNo req.allocationPages).map fun page =>
      mergeEntry req.retiredPhysicalChunkIDs entry (page.entryAt chunk)).getD entry
  else entry

/-- A request that reports its chunks can be merged into any pages. -/
theorem ReportsChunks.persist (h : ReportsChunks g m req) (hwf : m.PagesWF g) :
    ∃ stored, m.persistCommittedAllocationPages req = .ok { m with pages := stored } ∧
      (∀ page ∈ stored, page.WF g) ∧
      ∀ chunk,
        nativeEntry g stored chunk = mergeChunk g req chunk (nativeEntry g m.pages chunk) := by
  choose! ranges hranges using fun page hpage =>
    touchedRanges_ok (h.wf page hpage) h.within h.extents
  obtain ⟨stored, hpersist, hstored⟩ :=
    persistCommittedAllocationPages_ok hwf h.wf h.distinct ranges hranges
  refine ⟨stored, hpersist, hstored.wf, fun chunk => ?_⟩
  unfold mergeChunk
  dsimp only
  cases hget : get? (·.pageNo) (g.pageOf chunk) req.allocationPages with
  | none =>
    rw [nativeEntry, hstored.other _ (get?_eq_none.mp hget)]
    simp only [Option.map_none, Option.getD_none, ite_self]
    rfl
  | some page =>
    have hpage := mem_of_get? hget
    have hno : page.pageNo = g.pageOf chunk := key_of_get? hget
    obtain ⟨merged, hmget, hmerged⟩ := hstored.merged page hpage
    obtain ⟨r, hr, hrno⟩ := h.reported page hpage
    have hcovers := (touchedRanges_of_ok (hranges page hpage)).2 r hr hrno
    have hchanged : ChangedIn g (ranges page) page chunk ↔ Covers req.affectedPageChunkRanges
        (g.pageOf chunk) (chunk - g.pageOf chunk * g.chunksPerPage) := by
      rw [← hno, ← hcovers]
      refine ⟨fun hch => hch.resolve_left fun hnil => ?_, .inr⟩
      -- the range that is reported is not empty
      have hfirst := (hcovers r.startChunk).mpr ⟨r, hr, hrno, le_rfl, (h.within r hr).1⟩
      rw [hnil] at hfirst
      exact not_covers_nil _ _ hfirst
    rw [nativeEntry_of_get? (hno ▸ hmget), ← hchanged]
    split
    · next hch => exact hmerged.entryAt_changed chunk hno.symm hch
    · next hch => exact hmerged.entryAt_kept chunk hno.symm hch

/-- The effects of writes that report disjoint chunks may be merged into the pages in any order. -/
theorem effects_in_any_order (hwf : m.PagesWF g)
    {reqs reqs' : List ApplyCommittedWriteEffectsRequest} (hperm : reqs ~ reqs')
    (hreqs : ∀ req ∈ reqs, ReportsChunks g m req)
    (hdisj : ∀ a ∈ reqs, ∀ b ∈ reqs, a ≠ b → ∀ pageNo i,
      Covers a.affectedPageChunkRanges pageNo i → ¬ Covers b.affectedPageChunkRanges pageNo i) :
    ∃ m₁ m₂, reqs.foldlM persistCommittedAllocationPages m = .ok m₁ ∧
      reqs'.foldlM persistCommittedAllocationPages m = .ok m₂ ∧
      ∀ chunk, nativeEntry g m₁.pages chunk = nativeEntry g m₂.pages chunk := by
  refine Result.foldlM_perm (fun m' : Repository => m'.PagesWF g ∧ m'.extents = m.extents)
    (fun m' : Repository => nativeEntry g m'.pages) (mergeChunk g) hperm ⟨hwf, rfl⟩ ?_ ?_
  · rintro req hreq m' ⟨hwf, hexts⟩
    have hreports : ReportsChunks g m' req := { hreqs req hreq with
      extents := fun id hid => by
        rw [getExtentMapping, hexts]
        exact (hreqs req hreq).extents id hid }
    obtain ⟨stored, hpersist, hstored, hmerged⟩ := hreports.persist hwf
    exact ⟨_, hpersist, ⟨hstored, hexts⟩, hmerged⟩
  · intro a ha b hb chunk entry
    by_cases hab : a = b
    · rw [hab]
    have hno := hdisj a ha b hb hab (g.pageOf chunk) (chunk - g.pageOf chunk * g.chunksPerPage)
    unfold mergeChunk
    dsimp only
    by_cases hcov : Covers a.affectedPageChunkRanges (g.pageOf chunk)
        (chunk - g.pageOf chunk * g.chunksPerPage)
    · rw [if_neg (hno hcov), if_neg (hno hcov)]
    · rw [if_neg hcov, if_neg hcov]

/-- A request for one chunk of a page of three. -/
def oneChunkRequest (chunk : Nat) : ApplyCommittedWriteEffectsRequest :=
  { middleChunkRequest with
    affectedPageChunkRanges := [{ pageNo := 0, startChunk := chunk, endChunk := chunk + 1 }] }

/-- Two requests for chunks of one page leave the same map in either order. -/
theorem two_chunks_in_any_order :
    let g : Geometry := ⟨12, 4, by decide, by decide, by decide⟩
    ∃ m₁ m₂, [oneChunkRequest 0, oneChunkRequest 2].foldlM persistCommittedAllocationPages {} =
      .ok m₁ ∧
    [oneChunkRequest 2, oneChunkRequest 0].foldlM persistCommittedAllocationPages {} = .ok m₂ ∧
    ∀ chunk, nativeEntry g m₁.pages chunk = nativeEntry g m₂.pages chunk := by
  intro g
  have hreports : ∀ chunk < 3, ReportsChunks g {} (oneChunkRequest chunk) := fun chunk hlt =>
    { wf := by simpa [oneChunkRequest, middleChunkRequest] using
        ⟨rfl, rfl, ⟨rfl, by decide, rfl⟩, by decide⟩
      distinct := pairwise_singleton _ _
      reported := by simp [oneChunkRequest, middleChunkRequest, threeChunkPage]
      within := by
        simp only [oneChunkRequest, RangesWithin, mem_singleton, forall_eq]
        exact ⟨Nat.lt_succ_self _, by change chunk + 1 ≤ 12 / 4; omega⟩
      extents := nofun }
  refine effects_in_any_order (by simp [PagesWF]) (.swap ..) ?_ ?_
  · simpa using ⟨hreports 0 (by decide), hreports 2 (by decide)⟩
  · simp [Covers, oneChunkRequest]
    omega

end Order

section Bootstrap

/-- The pages of a commit, `own`, with the pages of a legacy volume added. -/
structure IsBootstrapped (g : Geometry) (m : Repository) (own pages : List AllocationPageRecord) :
    Prop where
  sorted : Table.Sorted (·.pageNo) pages
  keeps : ∀ page ∈ own, page ∈ pages
  added : ∀ page ∈ pages, page ∈ own ∨ (m.pages = [] ∧ m.IsLivePage g page.pageNo page ∧
    ∀ q ∈ own, q.pageNo ≠ page.pageNo)

variable {own : List AllocationPageRecord}

section

variable (h : IsBootstrapped g m own pages)

include h

theorem IsBootstrapped.congr {m' : Repository} (hpages : m'.pages = m.pages)
    (hexts : m'.extents = m.extents) : IsBootstrapped g m' own pages := by
  refine ⟨h.sorted, h.keeps, fun page hpage => (h.added page hpage).imp_right ?_⟩
  rintro ⟨hnil, hlive, hother⟩
  exact ⟨hpages.trans hnil, hlive.congr hpages hexts, hother⟩

theorem IsBootstrapped.forall_wf (hown : ∀ page ∈ own, page.WF g) : ∀ page ∈ pages, page.WF g := by
  intro page hpage
  rcases h.added page hpage with hin | ⟨-, hlive, -⟩
  · exact hown page hin
  · exact hlive.wf

theorem IsBootstrapped.ne_nil (hown : own ≠ []) : pages ≠ [] := by
  obtain ⟨page, hpage⟩ := exists_mem_of_ne_nil own hown
  exact ne_nil_of_mem (h.keeps page hpage)

end

def NamesExtents (m : Repository) (ids : List Nat) : Prop :=
  ∀ id ∈ ids, ∃ e ∈ m.extents, e.extentID = id

theorem prepareLegacyAllocationBootstrap_ok (hpages : ∀ page ∈ req.allocationPages, page.WF g) :
    ∃ bootstrap ids, m.prepareLegacyAllocationBootstrap req.allocationPages =
        .ok (bootstrap, ids) ∧
      (∀ page ∈ bootstrap, m.pages = [] ∧ m.IsLivePage g page.pageNo page) ∧
      NamesExtents m ids := by
  unfold prepareLegacyAllocationBootstrap
  cases hfirst : req.allocationPages with
  | nil => exact ⟨[], [], rfl, by simp, by simp [NamesExtents]⟩
  | cons first rest =>
    have hwf := hpages first (hfirst ▸ mem_cons_self)
    dsimp only
    by_cases hnil : m.pages = []
    · rw [if_neg (not_not.mpr hnil), hwf.invalidGeometry_eq, if_neg Bool.false_ne_true,
        hwf.pageBytes_eq, hwf.chunkSizeBytes_eq, listCompatibleAllocationPages,
        g.invalidGeometry_eq, if_neg Bool.false_ne_true, if_neg (not_not.mpr hnil)]
      refine ⟨_, _, rfl, fun page hpage => ⟨hnil, ?_⟩, fun id hid => mem_map.mp hid⟩
      obtain ⟨n, -, rfl⟩ := mem_map.mp hpage
      exact isLivePage_synthesize hnil n
    · rw [if_pos hnil]
      exact ⟨[], [], rfl, by simp, by simp [NamesExtents]⟩

theorem withLegacyBootstrap_ok (hpages : ∀ page ∈ req.allocationPages, page.WF g)
    (hsort : Sorted (·.pageNo) req.allocationPages)
    (hids : NamesExtents m req.normalizeExtentMappings) :
    ∃ pages ids, m.withLegacyBootstrap req =
        .ok { req with allocationPages := pages, normalizeExtentMappings := ids } ∧
      IsBootstrapped g m req.allocationPages pages ∧ NamesExtents m ids := by
  obtain ⟨bootstrap, ids, hboot, hlive, hboots⟩ := prepareLegacyAllocationBootstrap_ok
    (m := m) hpages
  unfold withLegacyBootstrap
  rw [hboot]
  have hnil : Sorted AllocationPageRecord.pageNo [] := List.Pairwise.nil
  have hsort' := (hnil.putAll bootstrap).putAll req.allocationPages
  have hkeeps : ∀ page ∈ req.allocationPages, get? (·.pageNo) page.pageNo
      (mergeAllocationPagesByPageNo bootstrap req.allocationPages) = some page :=
    fun page hpage => hsort.get?_putAll_of_mem hpage _
  refine ⟨_, _, rfl, ⟨hsort', fun page hpage => mem_of_get? (hkeeps page hpage), ?_⟩, ?_⟩
  · intro page hpage
    rcases mem_putAll hpage with hown | hother
    · exact .inl hown
    by_cases hclash : ∃ own ∈ req.allocationPages, own.pageNo = page.pageNo
    · -- a page of the write with this number has replaced the bootstrap page
      obtain ⟨own, hown, hno⟩ := hclash
      have hget := hkeeps own hown
      have hpageGet : get? (·.pageNo) page.pageNo
          (mergeAllocationPagesByPageNo bootstrap req.allocationPages) = some page :=
        hsort'.get?_of_mem hpage
      rw [hno, hpageGet] at hget
      exact .inl (Option.some.inj hget ▸ hown)
    · rcases mem_putAll hother with hb | hb
      · refine .inr ⟨(hlive page hb).1, (hlive page hb).2, fun own hown hno => ?_⟩
        exact hclash ⟨own, hown, hno⟩
      · cases hb
  · intro id hid
    rcases mem_putAll_id.mp hid with h | h
    · exact hids id h
    · rcases mem_putAll_id.mp h with h | h
      · exact hboots id h
      · cases h

end Bootstrap

/-! ## What becomes of the chunk map -/

/-- The stored pages after a commit that gives the touched chunks the entries of
`target`. An untouched chunk of a legacy volume may lose its entry. -/
structure PagesEffect (g : Geometry) (m : Repository) (touched : List Nat)
    (target : Nat → ChunkEntry) (stored : List AllocationPageRecord) : Prop where
  wf : ∀ page ∈ stored, page.WF g
  ne_nil : touched ≠ [] → stored ≠ []
  touched_eq : ∀ chunk ∈ touched, Repository.nativeEntry g stored chunk = target chunk
  untouched : ∀ chunk, chunk ∉ touched →
    Repository.nativeEntry g stored chunk = m.liveEntry g chunk ∨
      (m.pages = [] ∧ Repository.nativeEntry g stored chunk = .zero)

section Effect

variable {rev : Nat → Nat} {wreq : WriteRequest} {entry : Nat → ChunkEntry} {touched : List Nat}
  {alloc : AllocationCommit}

theorem native_eq_live_or_zero (chunk : Nat) :
    nativeEntry g m.pages chunk = m.liveEntry g chunk ∨
      (m.pages = [] ∧ nativeEntry g m.pages chunk = .zero) := by
  by_cases hnil : m.pages = []
  · right
    refine ⟨hnil, ?_⟩
    rw [hnil]
    rfl
  · left
    rw [liveEntry, if_neg hnil]

theorem IsAllocationCommit.covers_chunk (halloc : IsAllocationCommit g rev wreq entry touched alloc)
    (chunk : Nat) : Covers alloc.affectedPageChunkRanges (g.pageOf chunk)
      (chunk - g.pageOf chunk * g.chunksPerPage) ↔ chunk ∈ touched := by
  have hge := g.pageOf_mul_le chunk
  have hlt := g.lt_pageOf_succ_mul chunk
  rw [halloc.covers_iff, Nat.add_sub_cancel' hge]
  exact ⟨fun h => h.2, fun h => ⟨by omega, h⟩⟩

theorem IsAllocationCommit.pages_ne_nil (halloc : IsAllocationCommit g rev wreq entry touched alloc)
    (htouch : touched ≠ []) : alloc.pages ≠ [] := by
  obtain ⟨chunk, hchunk⟩ := exists_mem_of_ne_nil touched htouch
  obtain ⟨page, hpage, -⟩ := (halloc.pageNo_iff _).mpr ⟨chunk, hchunk, rfl⟩
  exact ne_nil_of_mem hpage

/-- Merging the pages of a commit maps the touched chunks and leaves the others. -/
theorem persist_effect (hwf : m.PagesWF g) (hsort : Sorted (·.extentID) m.extents)
    (halloc : IsAllocationCommit g rev wreq entry touched alloc)
    (hboot : IsBootstrapped g m alloc.pages req.allocationPages)
    (hranges : req.affectedPageChunkRanges = alloc.affectedPageChunkRanges)
    (hretired : req.retiredPhysicalChunkIDs = alloc.retiredPhysicalChunkIDs)
    (hids : NamesExtents m req.normalizeExtentMappings) :
    ∃ stored, m.persistCommittedAllocationPages req = .ok { m with pages := stored } ∧
      PagesEffect g m touched (fun chunk => mergeEntry alloc.retiredPhysicalChunkIDs
        (nativeEntry g m.pages chunk) (writeEntry g wreq entry chunk)) stored := by
  have hwithin : RangesWithin g.chunksPerPage req.affectedPageChunkRanges := by
    rw [hranges]; exact halloc.within
  have hpageWF : ∀ page ∈ req.allocationPages, page.WF g := hboot.forall_wf halloc.wf
  have hget : ∀ id ∈ req.normalizeExtentMappings, ∃ e, m.getExtentMapping id = .ok e := by
    intro id hid
    obtain ⟨e, he, rfl⟩ := hids id hid
    exact ⟨e, by rw [getExtentMapping, hsort.get?_of_mem he, orNotFound_some]⟩
  choose! ranges htouched using fun page (hpage : page ∈ req.allocationPages) =>
    touchedRanges_ok (hpageWF page hpage) hwithin hget
  -- the ranges of own pages are the reported ones
  have hown : ∀ page ∈ alloc.pages, ranges page ≠ [] ∧ ∀ i,
      Covers (ranges page) page.pageNo i ↔
        Covers alloc.affectedPageChunkRanges page.pageNo i := by
    intro page hpage
    obtain ⟨chunk, hchunk, hno⟩ := (halloc.pageNo_iff page.pageNo).mp ⟨page, hpage, rfl⟩
    have hcov := (halloc.covers_chunk chunk).mpr hchunk
    rw [hno, ← hranges] at hcov
    obtain ⟨r, hr, hrno, -⟩ := id hcov
    have hiff := (touchedRanges_of_ok (htouched page (hboot.keeps page hpage))).2 r hr hrno
    refine ⟨?_, hranges ▸ hiff⟩
    intro hnil
    rw [hnil] at hiff
    exact not_covers_nil _ _ ((hiff _).mpr hcov)
  obtain ⟨stored, hrun, hmerged⟩ := persistCommittedAllocationPages_ok hwf hpageWF
    hboot.sorted.pairwise_ne ranges htouched
  refine ⟨stored, hrun, hmerged.wf, ?_, ?_, ?_⟩
  · intro htouch hnil
    obtain ⟨page, hpage⟩ := exists_mem_of_ne_nil _ (halloc.pages_ne_nil htouch)
    obtain ⟨q, hq, -⟩ := hmerged.merged page (hboot.keeps page hpage)
    rw [hnil] at hq
    cases hq
  · intro chunk hchunk
    obtain ⟨page, hpage, hno⟩ := (halloc.pageNo_iff _).mpr ⟨chunk, hchunk, rfl⟩
    obtain ⟨q, hq, hqm⟩ := hmerged.merged page (hboot.keeps page hpage)
    have hchanged : ChangedIn g (ranges page) page chunk := by
      refine .inr ?_
      rw [(hown page hpage).2, hno]
      exact (halloc.covers_chunk chunk).mpr hchunk
    rw [nativeEntry_of_get? (hno ▸ hq), hqm.entryAt_changed chunk hno.symm hchanged,
      hretired, halloc.entryAt_eq page hpage chunk hno.symm, if_pos hchunk]
  · intro chunk hchunk
    by_cases hin : ∃ page ∈ req.allocationPages, page.pageNo = g.pageOf chunk
    · obtain ⟨page, hpage, hno⟩ := hin
      obtain ⟨q, hq, hqm⟩ := hmerged.merged page hpage
      rw [nativeEntry_of_get? (hno ▸ hq)]
      rcases hboot.added page hpage with hin | ⟨hnil, hlive, -⟩
      · obtain ⟨hne, hcov⟩ := hown page hin
        have hkept : ¬ ChangedIn g (ranges page) page chunk := by
          unfold ChangedIn
          rw [hcov, hno, halloc.covers_chunk]
          simp [hne, hchunk]
        rw [hqm.entryAt_kept chunk hno.symm hkept]
        exact native_eq_live_or_zero chunk
      · -- a page of the legacy volume: its chunks were zero before
        have hzero : nativeEntry g m.pages chunk = .zero := by rw [hnil]; rfl
        by_cases hch : ChangedIn g (ranges page) page chunk
        · left
          rw [hqm.entryAt_changed chunk hno.symm hch, hzero,
            mergeEntry_zero _ (hlive.wf.normal_entryAt chunk), hlive.entryAt_eq chunk hno.symm]
        · right
          exact ⟨hnil, by rw [hqm.entryAt_kept chunk hno.symm hch, hzero]⟩
    · have hother := hmerged.other (g.pageOf chunk) fun page hpage hno => hin ⟨page, hpage, hno⟩
      have hsame : nativeEntry g stored chunk =
          nativeEntry g m.pages chunk := by
        rw [nativeEntry, nativeEntry, hother]
      rw [hsame]
      exact native_eq_live_or_zero chunk

def bumpRevision (page : AllocationPageRecord) : AllocationPageRecord :=
  { page with revision := page.revision + 1 }

theorem preparePageScopedCommittedAllocationPages_eq (hwf : m.PagesWF g)
    (hpages : ∀ page ∈ pages, page.WF g) :
    m.preparePageScopedCommittedAllocationPages pages =
      if ∀ page ∈ pages, page.revision = m.pageRevision page.pageNo then
        .ok (pages.map bumpRevision)
      else .error .casConflict := by
  unfold preparePageScopedCommittedAllocationPages
  induction pages with
  | nil => rfl
  | cons page pages ih =>
    obtain ⟨hpage, hrest⟩ := forall_mem_cons.mp hpages
    obtain ⟨hcwf, -, -⟩ := currentPage_wf hwf page.pageNo
    have hrev : ((get? (·.pageNo) page.pageNo m.pages).getD
        (zeroAllocationPage page.pageNo g.pageBytes g.chunkSizeBytes)).revision =
        m.pageRevision page.pageNo := by
      unfold pageRevision
      cases get? (·.pageNo) page.pageNo m.pages <;> rfl
    rw [mapM_cons, ih hrest]
    dsimp only
    rw [hpage.pageBytes_eq, hpage.chunkSizeBytes_eq, hcwf.pageBytes_eq, hcwf.chunkSizeBytes_eq,
      hrev]
    simp only [ne_eq, not_true_eq_false, or_self, if_false, forall_mem_cons]
    by_cases hmoved : page.revision = m.pageRevision page.pageNo
    · by_cases hothers : ∀ page ∈ pages, page.revision = m.pageRevision page.pageNo
      · rw [if_neg (not_not.mpr hmoved.symm), if_pos hothers, if_pos ⟨hmoved, hothers⟩]
        simp only [Result.ok_bind, map_cons, bumpRevision, ← hmoved, hpage.pageBytes_eq,
          hpage.chunkSizeBytes_eq]
        rfl
      · rw [if_neg (not_not.mpr hmoved.symm), if_neg hothers, if_neg (fun h => hothers h.2)]
        rfl
    · have hnot : ¬ (page.revision = m.pageRevision page.pageNo ∧
          ∀ page ∈ pages, page.revision = m.pageRevision page.pageNo) := fun h => hmoved h.1
      rw [if_pos (fun h => hmoved h.symm), if_neg hnot]
      rfl

/-- A page is left alone or gets a higher revision. -/
def PagesAdvance (m : Repository) (stored : List AllocationPageRecord) : Prop :=
  ∀ pageNo, Table.get? (·.pageNo) pageNo stored = Table.get? (·.pageNo) pageNo m.pages ∨
    ∃ page, Table.get? (·.pageNo) pageNo stored = some page ∧
      m.pageRevision pageNo < page.revision

theorem pagesAdvance_bumpRevision (hsort : Sorted (·.pageNo) pages)
    (hrev : ∀ page ∈ pages, page.revision = m.pageRevision page.pageNo) :
    PagesAdvance m (putAll (·.pageNo) (pages.map bumpRevision) m.pages) := by
  have hbumped : Sorted (·.pageNo) (pages.map bumpRevision) := pairwise_map.mpr hsort
  intro pageNo
  by_cases hin : ∃ page ∈ pages, page.pageNo = pageNo
  · obtain ⟨page, hpage, rfl⟩ := hin
    refine .inr ⟨bumpRevision page, hbumped.get?_putAll_of_mem (mem_map_of_mem hpage) _, ?_⟩
    rw [← hrev page hpage]
    exact Nat.lt_succ_self _
  · refine .inl (get?_putAll_of_forall_ne ?_ _)
    intro q hq hno
    obtain ⟨page, hpage, rfl⟩ := mem_map.mp hq
    exact hin ⟨page, hpage, hno⟩

/-- As `persist_effect`, for a commit that replaces whole pages. -/
theorem replace_effect (hwf : m.PagesWF g)
    (halloc : IsAllocationCommit g rev wreq entry touched alloc)
    (hboot : IsBootstrapped g m alloc.pages pages)
    (hentry : ∀ page ∈ alloc.pages, ∀ chunk, g.pageOf chunk = page.pageNo → chunk ∉ touched →
      entry chunk = m.liveEntry g chunk) :
    PagesEffect g m touched (writeEntry g wreq entry)
      (putAll (·.pageNo) (pages.map bumpRevision) m.pages) := by
  have hsort : Sorted (·.pageNo) (pages.map bumpRevision) := pairwise_map.mpr hboot.sorted
  have hget : ∀ page ∈ pages, get? (·.pageNo) page.pageNo
      (putAll (·.pageNo) (pages.map bumpRevision) m.pages) = some (bumpRevision page) :=
    fun page hpage => hsort.get?_putAll_of_mem (mem_map_of_mem hpage) _
  have hnat : ∀ page ∈ pages, ∀ chunk, g.pageOf chunk = page.pageNo →
      nativeEntry g (putAll (·.pageNo) (pages.map bumpRevision) m.pages) chunk =
        page.entryAt chunk := by
    intro page hpage chunk hchunk
    rw [nativeEntry_of_get? (hchunk ▸ hget page hpage)]
    rfl
  refine ⟨?_, ?_, ?_, ?_⟩
  · intro q hq
    rcases mem_putAll hq with hq | hq
    · obtain ⟨page, hpage, rfl⟩ := mem_map.mp hq
      have hpageWF : page.WF g := hboot.forall_wf halloc.wf page hpage
      exact ⟨hpageWF.pageBytes_eq, hpageWF.chunkSizeBytes_eq, hpageWF.tiles, hpageWF.kinds⟩
    · exact hwf q hq
  · intro htouch hnil
    obtain ⟨page, hpage⟩ := exists_mem_of_ne_nil _ (halloc.pages_ne_nil htouch)
    have := hget page (hboot.keeps page hpage)
    rw [hnil] at this
    cases this
  · intro chunk hchunk
    obtain ⟨page, hpage, hno⟩ := (halloc.pageNo_iff _).mpr ⟨chunk, hchunk, rfl⟩
    rw [hnat page (hboot.keeps page hpage) chunk hno.symm,
      halloc.entryAt_eq page hpage chunk hno.symm, if_pos hchunk]
  · intro chunk hchunk
    by_cases hin : ∃ page ∈ pages, page.pageNo = g.pageOf chunk
    · obtain ⟨page, hpage, hno⟩ := hin
      left
      rw [hnat page hpage chunk hno.symm]
      rcases hboot.added page hpage with hown | ⟨-, hlive, -⟩
      · rw [halloc.entryAt_eq page hown chunk hno.symm, if_neg hchunk]
        exact hentry page hown chunk hno.symm hchunk
      · exact hlive.entryAt_eq chunk hno.symm
    · have hsame : nativeEntry g
          (putAll (·.pageNo) (pages.map bumpRevision) m.pages) chunk =
          nativeEntry g m.pages chunk := by
        rw [nativeEntry, nativeEntry, get?_putAll_of_forall_ne]
        intro q hq hno
        obtain ⟨page, hpage, rfl⟩ := mem_map.mp hq
        exact hin ⟨page, hpage, hno⟩
      rw [hsame]
      exact native_eq_live_or_zero chunk

end Effect

end Namrbd
