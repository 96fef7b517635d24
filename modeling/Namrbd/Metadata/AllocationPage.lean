import Namrbd.Lib.Result
import Namrbd.Lib.Runs
import Namrbd.Metadata.Types

/-!
# Allocation pages

An allocation page maps the logical chunks of one page of the volume to physical chunk
ids. It is stored as extents, runs of zero chunks and of consecutive physical ids, and
is worked on as one entry per chunk. On a page that satisfies
`AllocationPageRecord.WF` expansion succeeds, compression is its inverse, and
`AllocationPageRecord.entries` is the chunk map the page stands for.
-/

namespace Namrbd

open AllocationExtentRecord List Runs

/-! ## Geometry -/

/-- The page and chunk sizes of a volume: a page holds a whole number of chunks. -/
structure Geometry where
  pageBytes : Nat
  chunkSizeBytes : Nat
  pageBytes_pos : 0 < pageBytes
  chunkSizeBytes_pos : 0 < chunkSizeBytes
  mod_eq_zero : pageBytes % chunkSizeBytes = 0

/-- `page_bytes == 0 || chunk_size_bytes == 0 || page_bytes % chunk_size_bytes != 0`. -/
def invalidGeometry (pageBytes chunkSizeBytes : Nat) : Bool :=
  pageBytes == 0 || chunkSizeBytes == 0 || pageBytes % chunkSizeBytes != 0

/-- A geometry that has passed the check. -/
def geometryOf {pageBytes chunkSizeBytes : Nat}
    (h : invalidGeometry pageBytes chunkSizeBytes = false) : Geometry where
  pageBytes := pageBytes
  chunkSizeBytes := chunkSizeBytes
  pageBytes_pos := by simp [invalidGeometry] at h; omega
  chunkSizeBytes_pos := by simp [invalidGeometry] at h; omega
  mod_eq_zero := by simp [invalidGeometry] at h; omega

namespace Geometry

variable (g : Geometry)

def chunksPerPage : Nat := g.pageBytes / g.chunkSizeBytes

/-- The page that a chunk of the volume is in. -/
def pageOf (chunk : Nat) : Nat := chunk / g.chunksPerPage

theorem chunksPerPage_mul : g.chunksPerPage * g.chunkSizeBytes = g.pageBytes :=
  Nat.div_mul_cancel (Nat.dvd_of_mod_eq_zero g.mod_eq_zero)

theorem chunksPerPage_pos : 0 < g.chunksPerPage :=
  Nat.div_pos (Nat.le_of_dvd g.pageBytes_pos (Nat.dvd_of_mod_eq_zero g.mod_eq_zero))
    g.chunkSizeBytes_pos

@[simp] theorem invalidGeometry_eq : invalidGeometry g.pageBytes g.chunkSizeBytes = false := by
  have hp := g.pageBytes_pos
  have hc := g.chunkSizeBytes_pos
  simp [invalidGeometry, g.mod_eq_zero]
  omega

theorem pageOf_mul_le (chunk : Nat) : g.pageOf chunk * g.chunksPerPage ≤ chunk :=
  Nat.div_mul_le_self chunk g.chunksPerPage

theorem lt_pageOf_succ_mul (chunk : Nat) :
    chunk < g.pageOf chunk * g.chunksPerPage + g.chunksPerPage :=
  Nat.lt_div_mul_add g.chunksPerPage_pos

theorem pageOf_eq_iff {chunk pageNo : Nat} :
    g.pageOf chunk = pageNo ↔
      pageNo * g.chunksPerPage ≤ chunk ∧ chunk < pageNo * g.chunksPerPage + g.chunksPerPage := by
  unfold pageOf
  rw [Nat.div_eq_iff g.chunksPerPage_pos]
  have := g.chunksPerPage_pos
  omega

end Geometry

/-! ## Entries -/

/-- What a page says about one logical chunk: its physical chunk id, 0 for a
chunk of zeros, and the encryption header stored with it. -/
structure ChunkEntry where
  physicalChunkID : Nat
  encryption : Option PayloadEncryptionHeader := none
  deriving DecidableEq

namespace ChunkEntry

def zero : ChunkEntry := ⟨0, none⟩

/-- A zero chunk has no header. -/
def Normal (a : ChunkEntry) : Prop := a.physicalChunkID = 0 → a.encryption = none

theorem Normal.eq_zero {a : ChunkEntry} (h : a.Normal) (hid : a.physicalChunkID = 0) :
    a = zero := by
  cases a with
  | mk id enc =>
    cases hid
    cases h rfl
    rfl

@[simp] theorem normal_zero : zero.Normal := fun _ => rfl

theorem normal_of_none (id : Nat) : (ChunkEntry.mk id none).Normal := fun _ => rfl

/-- The `k`-th entry of a run that begins with `a`. -/
def value (a : ChunkEntry) (k : Nat) : ChunkEntry :=
  if a.physicalChunkID = 0 then zero else ⟨a.physicalChunkID + k, a.encryption⟩

theorem value_zero {a : ChunkEntry} (h : a.Normal) : a.value 0 = a := by
  unfold value
  split
  · next hid => exact (h.eq_zero hid).symm
  · rfl

end ChunkEntry

/-! ## Extents -/

/-- The entry of the `k`-th chunk of an extent. A shared extent has none. -/
def AllocationExtentRecord.entry (extent : AllocationExtentRecord) (k : Nat) : ChunkEntry :=
  if extent.kind = .data then ⟨extent.physicalChunkStart + k, extent.encryption⟩ else .zero

def AllocationExtentRecord.entries (extent : AllocationExtentRecord) : List ChunkEntry :=
  (List.range extent.chunkCount).map extent.entry

/-- The extent of a run of `count` chunks that starts with the entry `a`. -/
def AllocationExtentRecord.ofRun (start : Nat) (a : ChunkEntry) (count : Nat) :
    AllocationExtentRecord :=
  if a.physicalChunkID = 0 then
    { logicalChunkStart := start, chunkCount := count, kind := .zero }
  else
    { logicalChunkStart := start, chunkCount := count, kind := .data,
      physicalChunkStart := a.physicalChunkID, encryption := a.encryption }

@[simp] theorem AllocationExtentRecord.logicalChunkStart_ofRun (start : Nat) (a : ChunkEntry)
    (count : Nat) : (ofRun start a count).logicalChunkStart = start := by
  unfold ofRun
  split <;> rfl

@[simp] theorem AllocationExtentRecord.chunkCount_ofRun (start : Nat) (a : ChunkEntry)
    (count : Nat) : (ofRun start a count).chunkCount = count := by
  unfold ofRun
  split <;> rfl

theorem AllocationExtentRecord.entry_ofRun (start : Nat) (a : ChunkEntry) (count k : Nat) :
    (ofRun start a count).entry k = a.value k := by
  unfold ofRun entry ChunkEntry.value
  split <;> simp

/-! ## Compression and expansion -/

variable (sameHeader : Option PayloadEncryptionHeader → Option PayloadEncryptionHeader → Bool)

/-- Whether `b` continues a data or zero run of `n` chunks begun by `a`;
`sameHeader` compares the headers of a data run. -/
def continuesRun (a : ChunkEntry) (n : Nat) (b : ChunkEntry) : Bool :=
  if a.physicalChunkID = 0 then b.physicalChunkID == 0
  else b.physicalChunkID == a.physicalChunkID + n && sameHeader a.encryption b.encryption

/-- Runs of consecutive ids with headers that `sameHeader` takes for one. -/
def compressWith (pageStartChunk : Nat) (entries : List ChunkEntry) :
    List AllocationExtentRecord :=
  Runs.place AllocationExtentRecord.ofRun pageStartChunk
    (Runs.runs (continuesRun sameHeader) entries)

/-- The repository's compression: data runs continue while the headers are equal. -/
def compressAllocationChunkMappingsWithHeaders (pageStartChunk : Nat) (entries : List ChunkEntry) :
    List AllocationExtentRecord :=
  compressWith (fun a b => a == b) pageStartChunk entries

/-- The write path's compression: only runs without headers continue. -/
def compressAllocationCommitChunkMappings (pageStartChunk : Nat) (entries : List ChunkEntry) :
    List AllocationExtentRecord :=
  compressWith (fun a b => a == none && b == none) pageStartChunk entries

def compressMetadataAllocationPageWithHeaders (pageStartChunk : Nat) (entries : List ChunkEntry) :
    List AllocationExtentRecord :=
  compressWith (fun a b => a == b) pageStartChunk entries

namespace AllocationPageRecord

variable (page : AllocationPageRecord)

def chunksPerPage : Nat := page.pageBytes / page.chunkSizeBytes

def startChunk : Nat := page.pageNo * page.chunksPerPage

/-- The entries of a page, extent after extent. -/
def entries : List ChunkEntry :=
  Runs.flatten (·.chunkCount) AllocationExtentRecord.entry page.extents

/-- The entry of a chunk of the volume. Where the page says nothing it is zero. -/
def entryAt (chunk : Nat) : ChunkEntry :=
  (page.entries[chunk - page.startChunk]?).getD .zero

end AllocationPageRecord

variable (page : AllocationPageRecord)

def invalidPageGeometry : Err :=
  .other s!"invalid allocation page geometry: page_no={page.pageNo} page_bytes={page.pageBytes} chunk_size_bytes={page.chunkSizeBytes}"

/-- One step of expansion: write an extent's entries into the page's entries. -/
def expandExtent (rejectEmpty : Bool) (out : List ChunkEntry) (extent : AllocationExtentRecord) :
    Except Err (List ChunkEntry) :=
  let start := extent.logicalChunkStart
  let stop := start + extent.chunkCount
  if rejectEmpty && extent.chunkCount == 0 then
    .error (.other s!"allocation extent has zero chunks: page_no={page.pageNo} logical_chunk_start={start}")
  else if start < page.startChunk ∨ page.startChunk + page.chunksPerPage < stop then
    .error (.other s!"allocation extent out of page bounds: page_no={page.pageNo} start={start} end={stop}")
  else
    .ok (Window.overlay out (start - page.startChunk) extent.entries)

/-- The write path's expansion; its callers have checked the geometry. -/
def expandAllocationPageChunkMappings : Except Err (List ChunkEntry) :=
  page.extents.foldlM (expandExtent page false) (List.replicate page.chunksPerPage .zero)

/-- The expansion of the repository. -/
def expandAllocationChunkMappingsWithHeaders : Except Err (List ChunkEntry) :=
  if invalidGeometry page.pageBytes page.chunkSizeBytes then .error (invalidPageGeometry page)
  else page.extents.foldlM (expandExtent page true) (List.replicate page.chunksPerPage .zero)

/-- The expansion of the control plane. -/
def expandMetadataAllocationPageWithHeaders : Except Err (List ChunkEntry) :=
  if invalidGeometry page.pageBytes page.chunkSizeBytes then .error (invalidPageGeometry page)
  else page.extents.foldlM (expandExtent page true) (List.replicate page.chunksPerPage .zero)

theorem length_expandAllocationChunkMappingsWithHeaders {page : AllocationPageRecord}
    {entries : List ChunkEntry} (h : expandAllocationChunkMappingsWithHeaders page = .ok entries) :
    invalidGeometry page.pageBytes page.chunkSizeBytes = false ∧
      entries.length = page.chunksPerPage := by
  unfold expandAllocationChunkMappingsWithHeaders at h
  split at h
  · cases h
  next hvalid =>
  refine ⟨Bool.eq_false_of_not_eq_true hvalid, ?_⟩
  refine Result.foldlM_of_forall (·.length = page.chunksPerPage) h length_replicate ?_
  intro extent _ out out' hlen hstep
  unfold expandExtent at hstep
  dsimp only at hstep
  split at hstep
  · cases hstep
  split at hstep
  · cases hstep
  next hbounds =>
  cases hstep
  have hentries : extent.entries.length = extent.chunkCount := by
    rw [AllocationExtentRecord.entries, length_map, length_range]
  rw [Window.length_overlay (by omega), hlen]

/-! ## Well-formed pages -/

/-- A page of a volume's geometry whose extents tile it, with zero extents and
data extents at nonzero physical ids. -/
structure AllocationPageRecord.WF (g : Geometry) (page : AllocationPageRecord) : Prop where
  pageBytes_eq : page.pageBytes = g.pageBytes
  chunkSizeBytes_eq : page.chunkSizeBytes = g.chunkSizeBytes
  tiles : Runs.Tiles (·.logicalChunkStart) (·.chunkCount) page.startChunk page.extents
    (page.startChunk + page.chunksPerPage)
  kinds : ∀ e ∈ page.extents, e.kind = .zero ∨ (e.kind = .data ∧ 0 < e.physicalChunkStart)

namespace AllocationPageRecord

variable {g : Geometry} {page : AllocationPageRecord}

section

variable (h : page.WF g)

include h

theorem WF.chunksPerPage_eq : page.chunksPerPage = g.chunksPerPage := by
  rw [chunksPerPage, h.pageBytes_eq, h.chunkSizeBytes_eq, Geometry.chunksPerPage]

theorem WF.startChunk_eq : page.startChunk = page.pageNo * g.chunksPerPage := by
  rw [startChunk, h.chunksPerPage_eq]

theorem WF.invalidGeometry_eq : invalidGeometry page.pageBytes page.chunkSizeBytes = false := by
  rw [h.pageBytes_eq, h.chunkSizeBytes_eq, g.invalidGeometry_eq]

theorem WF.length_entries : page.entries.length = g.chunksPerPage := by
  rw [entries, h.tiles.length_flatten, h.chunksPerPage_eq]
  omega

theorem WF.normal_entry {e : AllocationExtentRecord} (he : e ∈ page.extents)
    (k : Nat) : (e.entry k).Normal := by
  intro hid
  unfold entry at hid ⊢
  rcases h.kinds e he with hz | ⟨hd, hpos⟩
  · simp [hz, ChunkEntry.zero]
  · simp only [hd, if_true] at hid
    omega

theorem WF.normal_of_mem : ∀ a ∈ page.entries, a.Normal := by
  intro a ha
  obtain ⟨e, he, ha⟩ := mem_flatMap.mp ha
  obtain ⟨k, -, rfl⟩ := mem_map.mp ha
  exact h.normal_entry he k

theorem WF.normal_entryAt (chunk : Nat) : (page.entryAt chunk).Normal := by
  unfold entryAt
  cases hget : page.entries[chunk - page.startChunk]? with
  | none => exact ChunkEntry.normal_zero
  | some a => exact h.normal_of_mem a (mem_of_getElem? hget)

theorem WF.getElem?_entries {i : Nat} (hi : i < g.chunksPerPage) :
    page.entries[i]? = some (page.entryAt (page.startChunk + i)) := by
  have hlt : i < page.entries.length := by rw [h.length_entries]; exact hi
  rw [entryAt, Nat.add_sub_cancel_left, getElem?_eq_getElem hlt, Option.getD_some]

theorem WF.foldlM_expandExtent (rejectEmpty : Bool) :
    page.extents.foldlM (expandExtent page rejectEmpty)
      (replicate page.chunksPerPage .zero) = .ok page.entries := by
  have hstep : ∀ out, ∀ e ∈ page.extents, expandExtent page rejectEmpty out e =
      .ok (Window.overlay out (e.logicalChunkStart - page.startChunk) e.entries) := by
    intro out e he
    obtain ⟨hlo, hhi, hpos⟩ := h.tiles.mem_bounds e he
    have hcount : (e.chunkCount == 0) = false := by simp; omega
    have hbounds : ¬ (e.logicalChunkStart < page.startChunk ∨
        page.startChunk + page.chunksPerPage < e.logicalChunkStart + e.chunkCount) := by omega
    simp [expandExtent, hcount, hbounds]
  obtain ⟨_, hok, rfl⟩ := Result.foldlM_ok (l := page.extents) (fun done out =>
      out = done.foldl (fun out e =>
        Window.overlay out (e.logicalChunkStart - page.startChunk) e.entries)
        (replicate page.chunksPerPage ChunkEntry.zero)) rfl fun done e rest out hsplit hout =>
    ⟨_, hstep out e (hsplit ▸ mem_append_right _ mem_cons_self), by rw [hout, foldl_append]; rfl⟩
  rw [hok]
  have hlen : (replicate page.chunksPerPage ChunkEntry.zero).length =
      page.startChunk + page.chunksPerPage - page.startChunk := by
    rw [length_replicate]; omega
  exact congrArg _ (h.tiles.foldl_overlay entry _ hlen)

theorem WF.expandAllocationPageChunkMappings_eq :
    expandAllocationPageChunkMappings page = .ok page.entries :=
  h.foldlM_expandExtent false

theorem WF.expandAllocationChunkMappingsWithHeaders_eq :
    expandAllocationChunkMappingsWithHeaders page = .ok page.entries := by
  rw [expandAllocationChunkMappingsWithHeaders, h.invalidGeometry_eq]
  exact h.foldlM_expandExtent true

end

end AllocationPageRecord

section Compression

variable {g : Geometry}
  {sameHeader : Option PayloadEncryptionHeader → Option PayloadEncryptionHeader → Bool}

section

variable (hsame : ∀ a b, sameHeader a b = true → a = b)

include hsame

theorem continuesRun_sound (a : ChunkEntry) (n : Nat) (b : ChunkEntry)
    (h : continuesRun sameHeader a n b = true) : a.value n = b.value 0 := by
  unfold continuesRun at h
  unfold ChunkEntry.value
  split at h
  · next ha => rw [if_pos ha, if_pos (beq_iff_eq.mp h)]
  next ha =>
  obtain ⟨hid, henc⟩ := Bool.and_eq_true_iff.mp h
  have hb := beq_iff_eq.mp hid
  rw [if_neg ha, if_neg (by omega), hb, hsame _ _ henc]
  rfl

variable {entries : List ChunkEntry} (hlen : entries.length = g.chunksPerPage)

include hlen

/-- A page compressed from entries is well formed and stands for them; its zero chunks
have no headers. -/
theorem entries_compressWith (pageNo revision : Nat) : let page : AllocationPageRecord := {
      pageNo := pageNo, pageBytes := g.pageBytes, chunkSizeBytes := g.chunkSizeBytes,
      revision := revision, extents := compressWith sameHeader (pageNo * g.chunksPerPage) entries }
    page.WF g ∧ page.entries = entries.map (·.value 0) := by
  intro page
  have hexpand : expand ChunkEntry.value (runs (continuesRun sameHeader) entries) =
      entries.map (·.value 0) :=
    expand_runs (continuesRun_sound hsame)
  have htiles := place_tiles logicalChunkStart_ofRun chunkCount_ofRun ChunkEntry.value
    (runs_pos (continuesRun sameHeader) entries) (pageNo * g.chunksPerPage)
  rw [hexpand, length_map, hlen] at htiles
  refine ⟨⟨rfl, rfl, htiles, ?_⟩,
    (flatten_place chunkCount_ofRun entry_ofRun _ (pageNo * g.chunksPerPage)).trans hexpand⟩
  intro e he
  obtain ⟨s, r, -, rfl⟩ := mem_place he
  unfold ofRun
  split
  · exact .inl rfl
  · next hid => exact .inr ⟨rfl, Nat.pos_of_ne_zero hid⟩

theorem compressWith_wf (hnormal : ∀ a ∈ entries, a.Normal) (pageNo revision : Nat) :
    let page : AllocationPageRecord := {
      pageNo := pageNo, pageBytes := g.pageBytes, chunkSizeBytes := g.chunkSizeBytes,
      revision := revision, extents := compressWith sameHeader (pageNo * g.chunksPerPage) entries }
    page.WF g ∧ ∀ chunk, page.entryAt chunk =
      (entries[chunk - pageNo * g.chunksPerPage]?).getD .zero := by
  obtain ⟨hwf, hents⟩ := entries_compressWith hsame hlen pageNo revision
  rw [map_congr_left fun a ha => ChunkEntry.value_zero (hnormal a ha), map_id'] at hents
  refine ⟨hwf, fun chunk => ?_⟩
  rw [AllocationPageRecord.entryAt, hents]
  rfl

end

theorem eq_of_beq_headers (a b : Option PayloadEncryptionHeader) (h : (a == b) = true) : a = b :=
  beq_iff_eq.mp h

theorem eq_of_both_none (a b : Option PayloadEncryptionHeader)
    (h : (a == none && b == none) = true) : a = b := by
  obtain ⟨ha, hb⟩ := Bool.and_eq_true_iff.mp h
  rw [beq_iff_eq.mp ha, beq_iff_eq.mp hb]

end Compression

/-! ## Zero pages -/

/-- A page without a mapped chunk. -/
def zeroAllocationPage (pageNo pageBytes chunkSizeBytes : Nat) : AllocationPageRecord :=
  let chunksPerPage := pageBytes / chunkSizeBytes
  { pageNo := pageNo, pageBytes := pageBytes, chunkSizeBytes := chunkSizeBytes,
    extents := [{ logicalChunkStart := pageNo * chunksPerPage, chunkCount := chunksPerPage,
                  kind := .zero }] }

theorem zeroAllocationPage_wf (g : Geometry) (pageNo : Nat) :
    (zeroAllocationPage pageNo g.pageBytes g.chunkSizeBytes).WF g where
  pageBytes_eq := rfl
  chunkSizeBytes_eq := rfl
  tiles := ⟨rfl, g.chunksPerPage_pos, rfl⟩
  kinds := by
    intro e he
    rw [zeroAllocationPage, mem_singleton] at he
    subst he
    exact .inl rfl

@[simp] theorem entryAt_zeroAllocationPage (pageNo pageBytes chunkSizeBytes chunk : Nat) :
    (zeroAllocationPage pageNo pageBytes chunkSizeBytes).entryAt chunk = .zero := by
  have hentry : ∀ a ∈ (zeroAllocationPage pageNo pageBytes chunkSizeBytes).entries, a = .zero := by
    intro a ha
    simp only [AllocationPageRecord.entries, zeroAllocationPage, Runs.flatten,
      flatMap_cons, flatMap_nil, append_nil, mem_map] at ha
    obtain ⟨k, -, rfl⟩ := ha
    rfl
  unfold AllocationPageRecord.entryAt
  cases hget : (zeroAllocationPage pageNo pageBytes chunkSizeBytes).entries[chunk -
      (zeroAllocationPage pageNo pageBytes chunkSizeBytes).startChunk]? with
  | none => rfl
  | some a => exact hentry a (mem_of_getElem? hget)

end Namrbd
