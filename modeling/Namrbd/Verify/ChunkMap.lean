import Mathlib.Data.List.Induction
import Namrbd.Metadata.Resolve

/-!
# The chunk map of a volume

`Repository.liveEntry` is the chunk map the stored metadata stands for: what the
native pages say once there are any, and what the extent mappings own before.
Every page the repository resolves for a request shows this map
(`Repository.IsLivePage`), whichever of the three ways it was resolved in.
-/

namespace Namrbd

open ChunkEntry ExtentMappingRecord List Table Option Result

variable {mappings : List ExtentMappingRecord} {chunk pageNo : Nat} {g : Geometry}

/-! ## Chunks owned by extent mappings -/

/-- The id an extent mapping owns for a chunk it covers; 0 if it owns none. -/
def ExtentMappingRecord.ownChunkID (chunkSizeBytes : Nat) (mapping : ExtentMappingRecord)
    (chunk : Nat) : Option Nat :=
  if mapping.lengthBytes ≠ 0 ∧ mapping.logicalOffset / chunkSizeBytes ≤ chunk ∧
      chunk < (mapping.logicalOffset + mapping.lengthBytes + chunkSizeBytes - 1) / chunkSizeBytes
  then some (if mapping.chunkID = 0 then 0
    else mapping.chunkID + (chunk - mapping.logicalOffset / chunkSizeBytes))
  else none

/-- The chunk id that the extent mappings give a chunk. -/
def legacyChunkID (chunkSizeBytes : Nat) (mappings : List ExtentMappingRecord) (chunk : Nat) :
    Nat :=
  mappings.foldl (fun id mapping => (mapping.ownChunkID chunkSizeBytes chunk).getD id) 0

namespace Repository

theorem length_synthesizeMapping (chunkSizeBytes pageStart pageEnd : Nat) (ids : List Nat)
    (mapping : ExtentMappingRecord) :
    (synthesizeMapping chunkSizeBytes pageStart pageEnd ids mapping).length = ids.length := by
  unfold synthesizeMapping
  split
  · rfl
  dsimp only
  split
  · rfl
  · exact foldlRecOn (motive := fun l : List Nat => l.length = ids.length) _ _ rfl fun _ hl _ _ =>
      length_set.trans hl

variable {ids : List Nat} {i : Nat}

theorem getElem?_synthesizeMapping {chunkSizeBytes pageStart : Nat} (mapping : ExtentMappingRecord)
    (hi : i < ids.length) :
    (synthesizeMapping chunkSizeBytes pageStart (pageStart + ids.length) ids mapping)[i]? =
      ids[i]?.map fun id => (mapping.ownChunkID chunkSizeBytes (pageStart + i)).getD id := by
  unfold synthesizeMapping ownChunkID
  by_cases hlen : mapping.lengthBytes = 0
  · simp [hlen]
  simp only [hlen, if_false, ne_eq, not_false_eq_true, true_and]
  split
  · next hout => rw [if_neg (by omega)]; simp
  next hin =>
  rw [Window.getElem?_foldl_set pageStart _ (by
    intro c hc
    have := mem_range'_1.mp hc
    omega)]
  by_cases hcover : mapping.logicalOffset / chunkSizeBytes ≤ pageStart + i ∧
      pageStart + i <
        (mapping.logicalOffset + mapping.lengthBytes + chunkSizeBytes - 1) / chunkSizeBytes
  · rw [if_pos hcover, if_pos (mem_range'_1.mpr (by omega))]
    rfl
  rw [if_neg hcover, if_neg (by
    intro hmem
    have := mem_range'_1.mp hmem
    exact hcover (by omega))]
  simp

theorem getElem?_foldl_synthesizeMapping (chunkSizeBytes pageStart : Nat)
    (mappings : List ExtentMappingRecord) {id : Nat} (hid : ids[i]? = some id) :
    (mappings.foldl
      (synthesizeMapping chunkSizeBytes pageStart (pageStart + ids.length)) ids)[i]? =
      some (mappings.foldl (fun id mapping =>
        (mapping.ownChunkID chunkSizeBytes (pageStart + i)).getD id) id) := by
  induction mappings generalizing ids id with
  | nil => exact hid
  | cons mapping mappings ih =>
    have hi : i < ids.length := (List.getElem?_eq_some_iff.mp hid).1
    have hstep : (synthesizeMapping chunkSizeBytes pageStart (pageStart + ids.length) ids
        mapping)[i]? = some ((mapping.ownChunkID chunkSizeBytes (pageStart + i)).getD id) := by
      rw [getElem?_synthesizeMapping mapping hi, hid, map_some]
    have hnext := ih hstep
    rw [length_synthesizeMapping] at hnext
    exact hnext

theorem length_foldl_synthesizeMapping (chunkSizeBytes pageStart pageEnd : Nat)
    (mappings : List ExtentMappingRecord) (ids : List Nat) :
    (mappings.foldl (synthesizeMapping chunkSizeBytes pageStart pageEnd) ids).length =
      ids.length :=
  foldlRecOn (motive := fun l : List Nat => l.length = ids.length) _ _ rfl fun _ hl _ _ =>
    (length_synthesizeMapping ..).trans hl

theorem getElem?_synthesized (g : Geometry) (pageNo : Nat) (mappings : List ExtentMappingRecord)
    (hi : i < g.chunksPerPage) :
    (mappings.foldl (synthesizeMapping g.chunkSizeBytes (pageNo * g.chunksPerPage)
      (pageNo * g.chunksPerPage + g.chunksPerPage)) (replicate g.chunksPerPage 0))[i]? =
      some (legacyChunkID g.chunkSizeBytes mappings (pageNo * g.chunksPerPage + i)) := by
  have hzero : (replicate g.chunksPerPage 0)[i]? = some 0 := by
    rw [getElem?_replicate, if_pos hi]
  have hget := getElem?_foldl_synthesizeMapping g.chunkSizeBytes (pageNo * g.chunksPerPage)
    mappings hzero
  rwa [length_replicate] at hget

theorem synthesizeAllocationPageFromMappings_wf (g : Geometry) (pageNo : Nat)
    (mappings : List ExtentMappingRecord) :
    let page := synthesizeAllocationPageFromMappings pageNo g.pageBytes g.chunkSizeBytes mappings
    page.WF g ∧ ∀ chunk, g.pageOf chunk = pageNo →
      page.entryAt chunk = ⟨legacyChunkID g.chunkSizeBytes mappings chunk, none⟩ := by
  intro page
  let ids := mappings.foldl
    (synthesizeMapping g.chunkSizeBytes (pageNo * g.chunksPerPage)
      (pageNo * g.chunksPerPage + g.chunksPerPage)) (replicate g.chunksPerPage 0)
  let entries : List ChunkEntry := ids.map fun id => ⟨id, none⟩
  have hids : ids.length = g.chunksPerPage := by
    rw [length_foldl_synthesizeMapping, length_replicate]
  have hlen : entries.length = g.chunksPerPage := by rw [length_map, hids]
  have hnormal : ∀ a ∈ entries, a.Normal := by
    intro a ha
    obtain ⟨id, -, rfl⟩ := mem_map.mp ha
    exact normal_of_none id
  obtain ⟨hwf, hents⟩ := compressWith_wf eq_of_beq_headers hlen hnormal pageNo 0
  refine ⟨hwf, fun chunk hchunk => ?_⟩
  obtain ⟨hge, hlt⟩ := g.pageOf_eq_iff.mp hchunk
  have hget := getElem?_synthesized g pageNo mappings
    (i := chunk - pageNo * g.chunksPerPage) (by omega)
  rw [Nat.add_sub_cancel' hge] at hget
  have hentry : entries[chunk - pageNo * g.chunksPerPage]? =
      some ⟨legacyChunkID g.chunkSizeBytes mappings chunk, none⟩ := by
    rw [getElem?_map, hget]
    rfl
  exact (hents chunk).trans (by rw [hentry]; rfl)

end Repository

theorem legacyChunkID_cases (chunkSizeBytes : Nat) (mappings : List ExtentMappingRecord)
    (chunk : Nat) :
    (∃ mapping ∈ mappings, mapping.ownChunkID chunkSizeBytes chunk =
        some (legacyChunkID chunkSizeBytes mappings chunk)) ∨
      (∀ mapping ∈ mappings, mapping.ownChunkID chunkSizeBytes chunk = none) ∧
        legacyChunkID chunkSizeBytes mappings chunk = 0 := by
  unfold legacyChunkID
  induction mappings using reverseRecOn with
  | nil => exact .inr ⟨nofun, rfl⟩
  | append_singleton mappings last ih =>
    rw [foldl_append, foldl_cons, foldl_nil]
    cases hown : last.ownChunkID chunkSizeBytes chunk with
    | some id => exact .inl ⟨last, by simp, hown⟩
    | none =>
      rcases ih with ⟨mapping, hmem, hid⟩ | ⟨hnone, hzero⟩
      · exact .inl ⟨mapping, mem_append_left _ hmem, hid⟩
      · exact .inr ⟨by simpa [or_imp, forall_and, hown] using hnone, hzero⟩

theorem exists_ownChunkID {chunkSizeBytes : Nat}
    (h : legacyChunkID chunkSizeBytes mappings chunk ≠ 0) :
    ∃ mapping ∈ mappings, mapping.ownChunkID chunkSizeBytes chunk =
      some (legacyChunkID chunkSizeBytes mappings chunk) :=
  (legacyChunkID_cases ..).resolve_right fun hnone => h hnone.2

/-! ## The pages the mappings reach -/

namespace Repository

def mappingPageNos (pageBytes chunkSizeBytes : Nat) (mapping : ExtentMappingRecord) : List Nat :=
  if mapping.lengthBytes = 0 then []
  else
    let startPage := mapping.logicalOffset / chunkSizeBytes / (pageBytes / chunkSizeBytes)
    let endPage := (mapping.logicalOffset + mapping.lengthBytes - 1) / chunkSizeBytes /
      (pageBytes / chunkSizeBytes)
    List.range' startPage (endPage + 1 - startPage)

theorem mem_mappedPageNos {pageBytes chunkSizeBytes n : Nat} :
    n ∈ mappedPageNos pageBytes chunkSizeBytes mappings ↔
      ∃ mapping ∈ mappings, n ∈ mappingPageNos pageBytes chunkSizeBytes mapping := by
  have hstep : ∀ (pageNos : List Nat) (mapping : ExtentMappingRecord),
      (if mapping.lengthBytes = 0 then pageNos
        else
          let startChunk := mapping.logicalOffset / chunkSizeBytes
          let endChunk := (mapping.logicalOffset + mapping.lengthBytes - 1) / chunkSizeBytes
          let startPage := startChunk / (pageBytes / chunkSizeBytes)
          let endPage := endChunk / (pageBytes / chunkSizeBytes)
          putAll id (range' startPage (endPage + 1 - startPage)) pageNos) =
        putAll id (mappingPageNos pageBytes chunkSizeBytes mapping) pageNos := by
    intro pageNos mapping
    unfold mappingPageNos
    split <;> rfl
  have hfold : ∀ pageNos : List Nat,
      n ∈ mappings.foldl (fun pageNos mapping =>
        putAll id (mappingPageNos pageBytes chunkSizeBytes mapping) pageNos) pageNos ↔
        n ∈ pageNos ∨
          ∃ mapping ∈ mappings, n ∈ mappingPageNos pageBytes chunkSizeBytes mapping := by
    induction mappings with
    | nil => simp
    | cons mapping mappings ih =>
      intro pageNos
      rw [foldl_cons, ih, mem_putAll_id, exists_mem_cons_iff]
      tauto
  unfold mappedPageNos
  simp only [hstep, hfold, not_mem_nil, false_or]

theorem pageOf_mem_mappedPageNos (g : Geometry)
    (h : legacyChunkID g.chunkSizeBytes mappings chunk ≠ 0) :
    g.pageOf chunk ∈ mappedPageNos g.pageBytes g.chunkSizeBytes mappings := by
  obtain ⟨mapping, hmem, hown⟩ := exists_ownChunkID h
  refine mem_mappedPageNos.mpr ⟨mapping, hmem, ?_⟩
  unfold ownChunkID at hown
  split at hown
  · next hcover =>
    obtain ⟨hlen, hlo, hhi⟩ := hcover
    have hend : chunk ≤ (mapping.logicalOffset + mapping.lengthBytes - 1) / g.chunkSizeBytes := by
      rw [Nat.le_div_iff_mul_le g.chunkSizeBytes_pos]
      have := (Nat.le_div_iff_mul_le g.chunkSizeBytes_pos).mp (Nat.succ_le_of_lt hhi)
      rw [Nat.succ_mul] at this
      omega
    rw [mappingPageNos, if_neg hlen]
    refine mem_range'_1.mpr ?_
    have hstart := Nat.div_le_div_right (c := g.chunksPerPage) hlo
    have hstop := Nat.div_le_div_right (c := g.chunksPerPage) hend
    unfold Geometry.pageOf
    unfold Geometry.chunksPerPage at *
    omega
  · cases hown

theorem synthesize_unmapped (hun : pageNo ∉ mappedPageNos g.pageBytes g.chunkSizeBytes mappings) :
    synthesizeAllocationPageFromMappings pageNo g.pageBytes g.chunkSizeBytes mappings =
      zeroAllocationPage pageNo g.pageBytes g.chunkSizeBytes := by
  have hids : mappings.foldl (synthesizeMapping g.chunkSizeBytes (pageNo * g.chunksPerPage)
      (pageNo * g.chunksPerPage + g.chunksPerPage)) (replicate g.chunksPerPage 0) =
        replicate g.chunksPerPage 0 := by
    refine ext_getElem? fun i => ?_
    by_cases hi : i < g.chunksPerPage
    · have hzero : legacyChunkID g.chunkSizeBytes mappings (pageNo * g.chunksPerPage + i) = 0 := by
        by_contra hne
        have hpage : g.pageOf (pageNo * g.chunksPerPage + i) = pageNo :=
          g.pageOf_eq_iff.mpr ⟨by omega, by omega⟩
        exact hun (hpage ▸ pageOf_mem_mappedPageNos g hne)
      rw [getElem?_synthesized g pageNo mappings hi, hzero, getElem?_replicate, if_pos hi]
    · rw [getElem?_eq_none (by rw [length_foldl_synthesizeMapping, length_replicate]; omega),
        getElem?_replicate, if_neg hi]
  obtain ⟨n, hn⟩ := Nat.exists_eq_succ_of_ne_zero g.chunksPerPage_pos.ne'
  unfold Geometry.chunksPerPage at hids hn
  rw [synthesizeAllocationPageFromMappings, zeroAllocationPage, hids, map_replicate,
    compressAllocationChunkMappingsWithHeaders, compressWith, hn, Runs.runs_replicate fun _ => rfl]
  rfl

/-! ## The live chunk map -/

/-- The entry of a chunk in the allocation pages. -/
def nativeEntry (g : Geometry) (pages : List AllocationPageRecord) (chunk : Nat) : ChunkEntry :=
  ((Table.get? (·.pageNo) (g.pageOf chunk) pages).map (·.entryAt chunk)).getD .zero

/-- The entry of a chunk, as a plan finds it. -/
def liveEntry (g : Geometry) (m : Repository) (chunk : Nat) : ChunkEntry :=
  if m.pages = [] then ⟨legacyChunkID g.chunkSizeBytes m.extents chunk, none⟩
  else nativeEntry g m.pages chunk

def pageRevision (m : Repository) (pageNo : Nat) : Nat :=
  ((Table.get? (·.pageNo) pageNo m.pages).map (·.revision)).getD 0

def PagesWF (g : Geometry) (m : Repository) : Prop := ∀ page ∈ m.pages, page.WF g

/-- A page as a request sees it: it shows the live map and the stored revision. -/
structure IsLivePage (g : Geometry) (m : Repository) (pageNo : Nat)
    (page : AllocationPageRecord) : Prop where
  wf : page.WF g
  pageNo_eq : page.pageNo = pageNo
  entryAt_eq : ∀ chunk, g.pageOf chunk = pageNo → page.entryAt chunk = m.liveEntry g chunk
  revision_eq : page.revision = m.pageRevision pageNo

section LivePages

variable {m : Repository} {page : AllocationPageRecord} {m' : Repository}
  {pages : List AllocationPageRecord}

theorem nativeEntry_of_get? (h : get? (·.pageNo) (g.pageOf chunk) pages = some page) :
    nativeEntry g pages chunk = page.entryAt chunk := by
  rw [nativeEntry, h]
  rfl

theorem nativeEntry_of_get?_none (h : get? (·.pageNo) (g.pageOf chunk) pages = none) :
    nativeEntry g pages chunk = .zero := by
  rw [nativeEntry, h]
  rfl

theorem normal_liveEntry (hwf : m.PagesWF g) (chunk : Nat) : (m.liveEntry g chunk).Normal := by
  unfold liveEntry
  split
  · exact normal_of_none _
  cases hget : get? (·.pageNo) (g.pageOf chunk) m.pages with
  | none => rw [nativeEntry_of_get?_none hget]; exact normal_zero
  | some page =>
    rw [nativeEntry_of_get? hget]
    exact (hwf page (mem_of_get? hget)).normal_entryAt chunk

theorem isLivePage_of_get? (hwf : m.PagesWF g)
    (hget : get? (·.pageNo) pageNo m.pages = some page) : m.IsLivePage g pageNo page where
  wf := hwf page (mem_of_get? hget)
  pageNo_eq := key_of_get? hget
  entryAt_eq := by
    intro chunk hchunk
    have hne : m.pages ≠ [] := ne_nil_of_mem (mem_of_get? hget)
    rw [liveEntry, if_neg hne, nativeEntry_of_get? (hchunk ▸ hget)]
  revision_eq := by rw [pageRevision, hget]; rfl

theorem isLivePage_synthesize (hnil : m.pages = []) (pageNo : Nat) :
    m.IsLivePage g pageNo
      (synthesizeAllocationPageFromMappings pageNo g.pageBytes g.chunkSizeBytes m.extents) where
  wf := (synthesizeAllocationPageFromMappings_wf g pageNo m.extents).1
  pageNo_eq := rfl
  entryAt_eq := by
    intro chunk hchunk
    rw [liveEntry, if_pos hnil]
    exact (synthesizeAllocationPageFromMappings_wf g pageNo m.extents).2 chunk hchunk
  revision_eq := by rw [pageRevision, hnil]; rfl

theorem pageNo_of_getCompatibleAllocationPage {pageBytes chunkSizeBytes : Nat}
    (h : m.getCompatibleAllocationPage pageNo pageBytes chunkSizeBytes = .ok page) :
    page.pageNo = pageNo := by
  unfold getCompatibleAllocationPage at h
  split at h
  · cases h
  split at h
  · next hget =>
    cases h
    exact key_of_get? hget
  · split at h <;> cases h <;> rfl

theorem getCompatibleAllocationPage_live (hwf : m.PagesWF g) (pageNo : Nat) :
    ∃ page, m.getCompatibleAllocationPage pageNo g.pageBytes g.chunkSizeBytes = .ok page ∧
      m.IsLivePage g pageNo page := by
  unfold getCompatibleAllocationPage
  rw [g.invalidGeometry_eq, if_neg Bool.false_ne_true]
  cases hget : get? (·.pageNo) pageNo m.pages with
  | some page => exact ⟨page, rfl, isLivePage_of_get? hwf hget⟩
  | none =>
    by_cases hnil : m.pages = []
    · rw [if_pos hnil]
      exact ⟨_, rfl, isLivePage_synthesize hnil pageNo⟩
    · rw [if_neg hnil]
      refine ⟨_, rfl, zeroAllocationPage_wf g pageNo, rfl, fun chunk hchunk => ?_,
        by rw [pageRevision, hget]; rfl⟩
      rw [liveEntry, if_neg hnil, nativeEntry_of_get?_none (hchunk ▸ hget),
        entryAt_zeroAllocationPage]

theorem liveEntry_congr (hpages : m'.pages = m.pages) (hexts : m'.extents = m.extents) :
    m'.liveEntry g = m.liveEntry g := by
  funext chunk
  rw [liveEntry, liveEntry, hpages, hexts]

theorem pageRevision_congr (hpages : m'.pages = m.pages) : m'.pageRevision = m.pageRevision := by
  funext pageNo
  rw [pageRevision, pageRevision, hpages]

theorem IsLivePage.congr (h : m.IsLivePage g pageNo page) (hpages : m'.pages = m.pages)
    (hexts : m'.extents = m.extents) : m'.IsLivePage g pageNo page :=
  ⟨h.wf, h.pageNo_eq, liveEntry_congr hpages hexts ▸ h.entryAt_eq,
    pageRevision_congr hpages ▸ h.revision_eq⟩

end LivePages

end Repository

/-! ## Resolving a request

The pages come from one listing when a request reaches many of them and are read
one after the other when it reaches few. -/

/-- The pages that a request touches. -/
def requestPageNos (g : Geometry) (off len : Nat) : List Nat :=
  let startPage := g.pageOf (off / g.chunkSizeBytes)
  let endPage := g.pageOf ((off + len - 1) / g.chunkSizeBytes)
  List.range' startPage (endPage + 1 - startPage)

def requestPage (g : Geometry) (off len : Nat) (page : AllocationPageRecord) :
    ResolvedAllocationPage :=
  resolvedAllocationPage (off / g.chunkSizeBytes) ((off + len - 1) / g.chunkSizeBytes)
    g.chunksPerPage page

namespace Repository

variable {m : Repository}

/-- A listing shows each page as it is read, with pages of zeros for those it leaves out. -/
theorem getCompatibleAllocationPage_of_listed {pageBytes chunkSizeBytes : Nat}
    {listed : List AllocationPageRecord} (hne : listed ≠ [])
    (h : m.listCompatibleAllocationPages pageBytes chunkSizeBytes = .ok listed) (pageNo : Nat) :
    m.getCompatibleAllocationPage pageNo pageBytes chunkSizeBytes =
      .ok ((get? (·.pageNo) pageNo listed).getD
        (zeroAllocationPage pageNo pageBytes chunkSizeBytes)) := by
  unfold listCompatibleAllocationPages at h
  unfold getCompatibleAllocationPage
  split at h
  · cases h
  next hvalid =>
  rw [if_neg hvalid]
  split at h
  · next hpages =>
    cases h
    cases get? (·.pageNo) pageNo m.pages with
    | some page => rfl
    | none => rw [if_neg hpages]; rfl
  next hnil =>
  cases h
  rw [not_not.mp hnil, get?_nil, get?_map fun _ => rfl]
  by_cases hun : pageNo ∈ mappedPageNos pageBytes chunkSizeBytes m.extents
  · rw [if_pos hun]
    rfl
  · rw [if_neg hun]
    exact congrArg Except.ok
      (synthesize_unmapped (g := geometryOf ((Bool.not_eq_true _).mp hvalid)) hun)

variable (m)

/-- The pages of a request, from a listing or one by one as `fromList` says. -/
def resolveAllocationPagesBy (fromList : Bool)
    (offsetBytes lengthBytes pageBytes chunkSizeBytes : Nat) :
    Except Err (List ResolvedAllocationPage) :=
  if lengthBytes = 0 then .ok []
  else if invalidGeometry pageBytes chunkSizeBytes then
    .error (invalidAllocationGeometry pageBytes chunkSizeBytes)
  else do
    let chunksPerPage := pageBytes / chunkSizeBytes
    let startChunk := offsetBytes / chunkSizeBytes
    let endChunk := (offsetBytes + lengthBytes - 1) / chunkSizeBytes
    let startPage := startChunk / chunksPerPage
    let endPage := endChunk / chunksPerPage
    let pageNos := List.range' startPage (endPage + 1 - startPage)
    let listed ← if fromList then m.listCompatibleAllocationPages pageBytes chunkSizeBytes
      else pure []
    let pages ← if listed ≠ [] then
        pure (pageNos.map fun pageNo => (Table.get? (·.pageNo) pageNo listed).getD
          (zeroAllocationPage pageNo pageBytes chunkSizeBytes))
      else
        pageNos.mapM fun pageNo => m.getCompatibleAllocationPage pageNo pageBytes chunkSizeBytes
    return pages.map (resolvedAllocationPage startChunk endChunk chunksPerPage)

variable (offsetBytes lengthBytes pageBytes chunkSizeBytes : Nat)

theorem resolveAllocationPagesBy_true :
    m.resolveAllocationPagesBy true offsetBytes lengthBytes pageBytes chunkSizeBytes =
      m.resolveAllocationPagesBy false offsetBytes lengthBytes pageBytes chunkSizeBytes := by
  unfold resolveAllocationPagesBy
  split
  · rfl
  split
  · rfl
  next hvalid =>
  simp only [if_true, Bool.false_eq_true, if_false, pure_eq_ok, ok_bind, ne_eq, not_true_eq_false]
  cases h : m.listCompatibleAllocationPages pageBytes chunkSizeBytes with
  | error err =>
    unfold listCompatibleAllocationPages at h
    rw [if_neg hvalid] at h
    split at h <;> cases h
  | ok listed =>
    rw [ok_bind]
    by_cases hne : listed = []
    · rw [if_neg (not_not.mpr hne)]
    rw [if_pos hne, mapM_eq_ok.mpr (forall₂_map_right_iff.mpr (forall₂_same.mpr fun pageNo _ =>
      getCompatibleAllocationPage_of_listed hne h pageNo)), ok_bind]

theorem resolveAllocationPages_eq_by :
    m.resolveAllocationPages offsetBytes lengthBytes pageBytes chunkSizeBytes =
      m.resolveAllocationPagesBy false offsetBytes lengthBytes pageBytes chunkSizeBytes := by
  by_cases hmany : resolveAllocationPagesListThreshold ≤
      (offsetBytes + lengthBytes - 1) / chunkSizeBytes / (pageBytes / chunkSizeBytes) + 1 -
        offsetBytes / chunkSizeBytes / (pageBytes / chunkSizeBytes)
  · rw [← resolveAllocationPagesBy_true]
    simp only [resolveAllocationPages, resolveAllocationPagesBy, length_range', hmany, if_true]
  · simp only [resolveAllocationPages, resolveAllocationPagesBy, length_range', hmany, if_false,
      Bool.false_eq_true]

/-- Whichever way the pages of a request are read, they are the same. -/
theorem resolveAllocationPages_paths (fromList : Bool) :
    m.resolveAllocationPagesBy fromList offsetBytes lengthBytes pageBytes chunkSizeBytes =
      m.resolveAllocationPages offsetBytes lengthBytes pageBytes chunkSizeBytes := by
  rw [resolveAllocationPages_eq_by]
  cases fromList with
  | true => exact resolveAllocationPagesBy_true ..
  | false => rfl

variable {m offsetBytes lengthBytes pageBytes chunkSizeBytes}

theorem resolveAllocationPages_eq {off len : Nat} (hlen : 0 < len) :
    m.resolveAllocationPages off len g.pageBytes g.chunkSizeBytes =
      ((requestPageNos g off len).mapM fun pageNo =>
        m.getCompatibleAllocationPage pageNo g.pageBytes g.chunkSizeBytes) >>=
          fun pages => .ok (pages.map (requestPage g off len)) := by
  rw [resolveAllocationPages_eq_by, resolveAllocationPagesBy, if_neg (by omega),
    g.invalidGeometry_eq, if_neg Bool.false_ne_true]
  rfl

theorem getCompatibleAllocationPage_of_resolved {pages : List ResolvedAllocationPage}
    (h : m.resolveAllocationPages offsetBytes lengthBytes pageBytes chunkSizeBytes = .ok pages) :
    ∀ resolved ∈ pages, ∃ pageNo,
      m.getCompatibleAllocationPage pageNo pageBytes chunkSizeBytes = .ok resolved.page := by
  by_cases hlen : lengthBytes = 0
  · rw [resolveAllocationPages, if_pos hlen] at h
    cases h
    exact nofun
  cases hvalid : invalidGeometry pageBytes chunkSizeBytes with
  | true =>
    rw [resolveAllocationPages, if_neg hlen, if_pos hvalid] at h
    cases h
  | false =>
    obtain ⟨records, hrecs, h⟩ := bind_eq_ok.mp
      ((resolveAllocationPages_eq (g := geometryOf hvalid) (Nat.pos_of_ne_zero hlen)).symm.trans h)
    cases h
    intro resolved hmem
    obtain ⟨page, hpage, rfl⟩ := mem_map.mp hmem
    obtain ⟨pageNo, -, hget⟩ := exists_of_mem_right (mapM_eq_ok.mp hrecs) hpage
    exact ⟨pageNo, hget⟩

end Repository

end Namrbd
