import Namrbd.Replication.PayloadGC

/-!
# What the reference scan finds

The scan adds the objects of one root after the other: the live pages, the pages
of every snapshot that is not deleted, and the deltas of the clones that are
available or materializing. On fixed metadata it is a function, `scanRoots`, and
what it returns is described by the objects the roots reach: an object is reached
by a list of pages when a page maps a chunk of its extent to its id.
-/

namespace Namrbd

open AllocationPageRecord List ReferenceScan Result

variable {pages : List AllocationPageRecord} {replicaIDs : List String} {volumeID : String}
  {mappings : List ExtentMappingRecord} {targetExtentIDs : List Nat} {scan : ReferenceScan}

/-! ## Reached objects -/

/-- The page maps the chunk to the object. -/
def AllocationPageRecord.Maps (page : AllocationPageRecord) (chunk id : Nat) : Prop :=
  page.startChunk ≤ chunk ∧ chunk < page.startChunk + page.chunksPerPage ∧ id ≠ 0 ∧
    ∃ extent, page.extents.find? (fun extent => decide (extent.logicalChunkStart ≤ chunk ∧
        chunk < extent.logicalChunkStart + extent.chunkCount)) = some extent ∧
      (extent.allocation chunk).zero = false ∧ (extent.allocation chunk).physicalChunkID = id

/-- The extent reaches the object through these pages. -/
def ReachedBy (mappings : List ExtentMappingRecord) (pages : List AllocationPageRecord)
    (extentID id : Nat) : Prop :=
  ∃ mapping ∈ mappings, mapping.extentID = extentID ∧ mapping.lengthBytes ≠ 0 ∧
    ∃ page ∈ pages, ∃ chunk ∈ touchedChunks page.chunkSizeBytes mapping.logicalOffset
      mapping.lengthBytes, page.Maps chunk id

def UniformGeometry (pages : List AllocationPageRecord) : Prop :=
  ∀ page ∈ pages, invalidGeometry page.pageBytes page.chunkSizeBytes = false ∧
    ∀ page' ∈ pages, page.pageBytes = page'.pageBytes ∧ page.chunkSizeBytes = page'.chunkSizeBytes

def DistinctPages (pages : List AllocationPageRecord) : Prop := (pages.map (·.pageNo)).Nodup

section Pages

theorem checkUniformGeometry_eq_ok : checkUniformGeometry pages = .ok () ↔ UniformGeometry pages := by
  cases pages with
  | nil => exact ⟨fun _ page hpage => (nomatch hpage), fun _ => rfl⟩
  | cons first rest =>
    unfold checkUniformGeometry
    rw [forM_eq_ok]
    constructor
    · intro h
      have hfirst : ∀ page ∈ first :: rest,
          invalidGeometry page.pageBytes page.chunkSizeBytes = false ∧
            page.pageBytes = first.pageBytes ∧ page.chunkSizeBytes = first.chunkSizeBytes := by
        intro page hpage
        have hcheck := h page hpage
        split at hcheck
        · cases hcheck
        next hvalid =>
        split at hcheck
        · cases hcheck
        · next hsame => exact ⟨by simpa using hvalid, by tauto, by tauto⟩
      intro page hpage
      obtain ⟨hvalid, hbytes, hchunk⟩ := hfirst page hpage
      refine ⟨hvalid, fun page' hpage' => ?_⟩
      obtain ⟨-, hbytes', hchunk'⟩ := hfirst page' hpage'
      exact ⟨hbytes.trans hbytes'.symm, hchunk.trans hchunk'.symm⟩
    · intro h page hpage
      obtain ⟨hvalid, hsame⟩ := h page hpage
      obtain ⟨hbytes, hchunk⟩ := hsame first mem_cons_self
      rw [if_neg (by simp [hvalid]), if_neg (by simp [hbytes, hchunk])]

def wholePage (page : AllocationPageRecord) : ResolvedAllocationPage :=
  { page := page
    rangeStartChunk := page.startChunk
    rangeEndChunk := page.startChunk + page.chunksPerPage }

variable {page : AllocationPageRecord} {chunk : Nat} {resolved : List ResolvedAllocationPage}

theorem resolvedAllocationPagesFromRecords_eq_ok
    (h : resolvedAllocationPagesFromRecords pages = .ok resolved) :
    UniformGeometry pages ∧ resolved.Perm (pages.map wholePage) := by
  obtain ⟨⟨⟩, hcheck, h⟩ := bind_eq_ok.mp h
  cases h
  exact ⟨checkUniformGeometry_eq_ok.mp hcheck, perm_insertionSort _ _⟩

theorem UniformGeometry.eq_of_chunk (h : UniformGeometry pages) (hdist : DistinctPages pages)
    {page' : AllocationPageRecord} (hpage : page ∈ pages) (hpage' : page' ∈ pages)
    (hge : page.startChunk ≤ chunk) (hlt : chunk < page.startChunk + page.chunksPerPage)
    (hge' : page'.startChunk ≤ chunk) (hlt' : chunk < page'.startChunk + page'.chunksPerPage) :
    page = page' := by
  have hsame : page.chunksPerPage = page'.chunksPerPage := by
    obtain ⟨hbytes, hchunk⟩ := (h page hpage).2 page' hpage'
    rw [chunksPerPage, hbytes, hchunk, chunksPerPage]
  have hno : page.pageNo = page'.pageNo := by
    unfold startChunk at hge hlt hge' hlt'
    rw [← hsame] at hge' hlt'
    have hdiv : chunk / page.chunksPerPage = page.pageNo := by
      rw [Nat.div_eq_iff (by omega)]
      omega
    have hdiv' : chunk / page.chunksPerPage = page'.pageNo := by
      rw [Nat.div_eq_iff (by omega)]
      omega
    exact hdiv.symm.trans hdiv'
  exact inj_on_of_nodup_map hdist hpage hpage' hno

theorem logicalChunkAllocationRecord_whole (h : UniformGeometry pages) (hdist : DistinctPages pages)
    (hperm : resolved.Perm (pages.map wholePage)) {id : Nat} (hid : id ≠ 0) :
    (∃ allocation, logicalChunkAllocationRecord resolved chunk = some allocation ∧
        allocation.zero = false ∧ allocation.physicalChunkID = id) ↔
      ∃ page ∈ pages, page.Maps chunk id := by
  have hmem : ∀ r ∈ resolved, ∃ page ∈ pages, r = wholePage page := by
    intro r hr
    obtain ⟨page, hpage, rfl⟩ := mem_map.mp (hperm.mem_iff.mp hr)
    exact ⟨page, hpage, rfl⟩
  unfold logicalChunkAllocationRecord
  constructor
  · rintro ⟨allocation, hlookup, hzero, hphys⟩
    split at hlookup
    · cases hlookup
    next r hfind =>
    obtain ⟨page, hpage, rfl⟩ := hmem r (mem_of_find?_eq_some hfind)
    have hfound := find?_some hfind
    have hin := of_decide_eq_true hfound
    obtain ⟨extent, hext, rfl⟩ := Option.map_eq_some_iff.mp hlookup
    exact ⟨page, hpage, hin.1, hin.2, hid, extent, hext, hzero, hphys⟩
  · rintro ⟨page, hpage, hge, hlt, -, extent, hext, hzero, hphys⟩
    have hwhole : wholePage page ∈ resolved := hperm.mem_iff.mpr (mem_map_of_mem hpage)
    have hin : (wholePage page).containsChunk chunk = true := decide_eq_true ⟨hge, hlt⟩
    cases hfind : resolved.find? (·.containsChunk chunk) with
    | none => exact absurd hin (by simpa using find?_eq_none.mp hfind _ hwhole)
    | some r =>
      obtain ⟨page', hpage', rfl⟩ := hmem r (mem_of_find?_eq_some hfind)
      have hfound := find?_some hfind
      have hin' := of_decide_eq_true hfound
      cases h.eq_of_chunk hdist hpage hpage' hge hlt hin'.1 hin'.2
      exact ⟨extent.allocation chunk, by simp only [wholePage, hext, Option.map_some],
        hzero, hphys⟩

end Pages

section Root

/-- A key of a replica the collector has a store for, of the volume and of a target extent. -/
def InSweep (replicaIDs : List String) (volumeID : String) (targetExtentIDs : List Nat)
    (key : PayloadKey) : Prop :=
  key.replicaID ∈ replicaIDs ∧ key.volumeID = volumeID ∧
    isTarget targetExtentIDs key.extentID = true

/-- The objects that a root refers to. -/
theorem mem_markReferenced (hdist : DistinctPages pages) {keys : List PayloadKey}
    (h : markReferencedPayloadKeysFromAllocationPages replicaIDs volumeID mappings
      targetExtentIDs pages = .ok keys) (key : PayloadKey) :
    key ∈ keys ↔ InSweep replicaIDs volumeID targetExtentIDs key ∧
      ReachedBy mappings pages key.extentID key.chunkID := by
  obtain ⟨resolved, hres, h⟩ := bind_eq_ok.mp h
  obtain ⟨huniform, hperm⟩ := resolvedAllocationPagesFromRecords_eq_ok hres
  cases resolved with
  | nil =>
    cases h
    have hnil : pages = [] := by simpa using hperm.symm
    subst hnil
    constructor
    · exact fun hkey => (nomatch hkey)
    · rintro ⟨-, mapping, -, -, -, page, hpage, -⟩
      exact nomatch hpage
  | cons first rest =>
    cases h
    obtain ⟨page0, hpage0, hfirst⟩ := mem_map.mp (hperm.mem_iff.mp mem_cons_self)
    have hchunkSize : ∀ page ∈ pages, first.page.chunkSizeBytes = page.chunkSizeBytes := by
      intro page hpage
      rw [← hfirst]
      exact ((huniform page0 hpage0).2 page hpage).2
    simp only [mem_flatMap, mem_filter, Bool.and_eq_true, bne_iff_ne]
    constructor
    · rintro ⟨mapping, ⟨hmap, htarget, hlen⟩, chunk, hchunk, hkey⟩
      split at hkey
      · exact nomatch hkey
      next allocation hlookup =>
      split at hkey
      · exact nomatch hkey
      next hdata =>
      obtain ⟨replicaID, hrepl, rfl⟩ := mem_map.mp hkey
      simp only [Bool.or_eq_true, beq_iff_eq, not_or, Bool.not_eq_true] at hdata
      obtain ⟨page, hpage, hmaps⟩ := (logicalChunkAllocationRecord_whole huniform hdist
        hperm hdata.2).mp ⟨allocation, hlookup, hdata.1, rfl⟩
      refine ⟨⟨hrepl, rfl, htarget⟩, mapping, hmap, rfl, hlen, page, hpage, chunk,
        ?_, hmaps⟩
      rw [← hchunkSize page hpage]
      exact hchunk
    · rintro ⟨⟨hrepl, hvol, htarget⟩, mapping, hmap, hext, hlen, page, hpage,
        chunk, hchunk, hmaps⟩
      obtain ⟨allocation, hlookup, hzero, hphys⟩ := (logicalChunkAllocationRecord_whole
        huniform hdist hperm hmaps.2.2.1).mpr ⟨page, hpage, hmaps⟩
      refine ⟨mapping, ⟨hmap, by rw [hext]; exact htarget, hlen⟩, chunk, ?_, ?_⟩
      · rw [hchunkSize page hpage]
        exact hchunk
      have hne := hmaps.2.2.1
      rw [hlookup]
      simp only [hzero, hphys, Bool.false_or, beq_iff_eq, hne, if_false]
      refine mem_map.mpr ⟨key.replicaID, hrepl, ?_⟩
      rw [hext, ← hvol]

theorem exists_markReferenced_iff :
    (∃ keys, markReferencedPayloadKeysFromAllocationPages replicaIDs volumeID mappings
      targetExtentIDs pages = .ok keys) ↔ UniformGeometry pages := by
  constructor
  · rintro ⟨keys, h⟩
    obtain ⟨resolved, hres, -⟩ := bind_eq_ok.mp h
    exact (resolvedAllocationPagesFromRecords_eq_ok hres).1
  intro h
  obtain ⟨resolved, hres⟩ : ∃ resolved, resolvedAllocationPagesFromRecords pages = .ok resolved := by
    unfold resolvedAllocationPagesFromRecords
    rw [checkUniformGeometry_eq_ok.mpr h]
    exact ⟨_, rfl⟩
  unfold markReferencedPayloadKeysFromAllocationPages
  rw [hres]
  cases resolved with
  | nil => exact ⟨[], rfl⟩
  | cons first rest => exact ⟨_, rfl⟩

end Root

/-! ## All roots -/

/-- The live pages, then those of the snapshots and of the clones. -/
def Repository.scannedRoots (m : Repository) : List (List AllocationPageRecord) :=
  m.pages :: (m.listSnapshotRecords.map fun snapshot => m.snapshotPages snapshot.snapshotID) ++
    (m.listCloneRecords.filter cloneDeltaScanned).map fun clone => m.cloneDeltaPages clone.cloneID

def ReferenceScan.start (mappings : List ExtentMappingRecord) (targetExtentIDs : List Nat) :
    ReferenceScan :=
  { referenced := []
    activeExtentIDs := (mappings.filter fun mapping =>
      isTarget targetExtentIDs mapping.extentID).map (·.extentID)
    nativeAllocation := false }

def scanRoots (replicaIDs : List String) (volumeID : String) (targetExtentIDs : List Nat)
    (m : Repository) : Except Err ReferenceScan :=
  m.scannedRoots.foldlM
    (ReferenceScan.addRoot replicaIDs volumeID m.extents targetExtentIDs)
    (.start m.extents targetExtentIDs)

section Roots

variable {roots : List (List AllocationPageRecord)}

variable (replicaIDs volumeID mappings targetExtentIDs roots) in
/-- What a scan of the roots has found. -/
structure ReferenceScan.Finds (scan : ReferenceScan) : Prop where
  active : scan.activeExtentIDs = (start mappings targetExtentIDs).activeExtentIDs
  native : scan.nativeAllocation = true ↔ ∃ pages ∈ roots, pages ≠ []
  referenced : ∀ key, key ∈ scan.referenced ↔ InSweep replicaIDs volumeID targetExtentIDs key ∧
    ∃ pages ∈ roots, ReachedBy mappings pages key.extentID key.chunkID

theorem not_reachedBy_nil {extentID id : Nat} : ¬ ReachedBy mappings [] extentID id := by
  rintro ⟨-, -, -, -, page, hpage, -⟩
  exact nomatch hpage

theorem ReferenceScan.exists_addRoot_iff :
    (∃ scan', scan.addRoot replicaIDs volumeID mappings targetExtentIDs pages = .ok scan') ↔
      UniformGeometry pages := by
  unfold addRoot
  by_cases hnil : pages = []
  · subst hnil
    exact ⟨fun _ page hpage => (nomatch hpage), fun _ => ⟨scan, rfl⟩⟩
  rw [if_neg hnil]
  constructor
  · rintro ⟨scan', h⟩
    obtain ⟨keys, hkeys, -⟩ := bind_eq_ok.mp h
    exact exists_markReferenced_iff.mp ⟨keys, hkeys⟩
  · intro h
    obtain ⟨keys, hkeys⟩ := exists_markReferenced_iff.mpr h
    exact ⟨_, by rw [hkeys]; rfl⟩

end Roots

section Scan

variable {m : Repository}

/-- A scan that succeeds went over roots of one geometry each and holds what they reach. -/
theorem finds_of_scanRoots (hdist : ∀ pages ∈ m.scannedRoots, DistinctPages pages)
    (h : scanRoots replicaIDs volumeID targetExtentIDs m = .ok scan) :
    (∀ pages ∈ m.scannedRoots, UniformGeometry pages) ∧
      scan.Finds replicaIDs volumeID m.extents targetExtentIDs m.scannedRoots := by
  refine foldlM_of_ok (fun roots scan => (∀ pages ∈ roots, UniformGeometry pages) ∧
    scan.Finds replicaIDs volumeID m.extents targetExtentIDs roots) h
    ⟨fun pages hpages => (nomatch hpages), rfl, by simp [start], by simp [start]⟩ ?_
  intro roots pages rest scan scan' hroots hscan hstep
  have hmem : pages ∈ m.scannedRoots := by
    rw [hroots]
    exact mem_append_right _ mem_cons_self
  refine ⟨fun pages' hpages' => ?_, ?_⟩
  · rcases mem_append.mp hpages' with hold | hnew
    · exact hscan.1 pages' hold
    · rw [mem_singleton.mp hnew]
      exact exists_addRoot_iff.mp ⟨scan', hstep⟩
  obtain ⟨-, hscan⟩ := hscan
  unfold addRoot at hstep
  by_cases hnil : pages = []
  · rw [if_pos hnil] at hstep
    cases hstep
    subst hnil
    exact {
      active := hscan.active
      native := by simp [hscan.native]
      referenced := fun key => by simp [hscan.referenced, not_reachedBy_nil] }
  · rw [if_neg hnil] at hstep
    obtain ⟨keys, hkeys, hstep⟩ := bind_eq_ok.mp hstep
    cases hstep
    refine { active := hscan.active, native := by simp [hnil], referenced := fun key => ?_ }
    simp only [mem_append, hscan.referenced, mem_markReferenced (hdist pages hmem) hkeys,
      mem_singleton, or_and_right, exists_or, exists_eq_left, and_or_left]

/-- What the roots the scan reads do not protect: with pages, what they do not reach;
without any, what no extent mapping names. What is reached is only protected if the volume is
spelled as in its keys. -/
def Repository.Unprotected (m : Repository) (spelled : Prop) (extentID id : Nat) : Prop :=
  (∀ pages ∈ m.scannedRoots, UniformGeometry pages) ∧
    ((∃ pages ∈ m.scannedRoots, pages ≠ []) → spelled →
      ∀ pages ∈ m.scannedRoots, ¬ ReachedBy m.extents pages extentID id) ∧
    ((∀ pages ∈ m.scannedRoots, pages = []) → ∀ mapping ∈ m.extents, mapping.extentID ≠ extentID)

theorem unprotected_iff_not_keeps (hdist : ∀ pages ∈ m.scannedRoots, DistinctPages pages)
    {spelling : String} (h : scanRoots replicaIDs spelling targetExtentIDs m = .ok scan)
    {key : PayloadKey} (hkey : InSweep replicaIDs volumeID targetExtentIDs key) :
    m.Unprotected (spelling = volumeID) key.extentID key.chunkID ↔ scan.keeps key = false := by
  obtain ⟨huniform, hfinds⟩ := finds_of_scanRoots hdist h
  unfold keeps
  by_cases hnat : scan.nativeAllocation = true
  · have hsome := hfinds.native.mp hnat
    rw [if_pos hnat, decide_eq_false_iff_not, hfinds.referenced]
    constructor
    · rintro ⟨-, hnone, -⟩ ⟨hin, pages, hpages, hreached⟩
      exact hnone hsome (hin.2.1.symm.trans hkey.2.1) pages hpages hreached
    intro hnot
    refine ⟨huniform, fun _ hspelled pages hpages hreached => ?_, ?_⟩
    · subst hspelled
      exact hnot ⟨hkey, pages, hpages, hreached⟩
    intro hempty
    obtain ⟨pages, hpages, hne⟩ := hsome
    exact absurd (hempty pages hpages) hne
  · have hempty : ∀ pages ∈ m.scannedRoots, pages = [] := by
      intro pages hpages
      by_contra hne
      exact hnat (hfinds.native.mpr ⟨pages, hpages, hne⟩)
    rw [if_neg hnat, decide_eq_false_iff_not, hfinds.active]
    simp only [start, mem_map, mem_filter, not_exists, not_and]
    constructor
    · rintro ⟨-, -, hnone⟩ mapping hmap
      exact hnone hempty mapping hmap.1
    intro hnot
    refine ⟨huniform, ?_, fun _ mapping hmap heq => hnot mapping ⟨hmap, ?_⟩ heq⟩
    · rintro ⟨pages, hpages, hne⟩
      exact absurd (hempty pages hpages) hne
    · rw [heq]
      exact hkey.2.2

end Scan

end Namrbd
