import Mathlib.Data.List.Chain
import Mathlib.Data.List.OfFn
import Namrbd.Metadata.AllocationPage

/-!
# Compressing and expanding chunk maps

The repository, the write path and the client compress the entries of a page on their own. What
each of them writes is a well-formed page that stands for the entries, except that a zero chunk
loses its header. The write path never joins chunks with headers, so its extents are those of the
other two only where no two neighbours have consecutive ids and the same header.
-/

namespace Namrbd

open AllocationExtentRecord ChunkEntry List Runs

section

variable (sameHeader : Option PayloadEncryptionHeader → Option PayloadEncryptionHeader → Bool)

theorem continuesRun_value (a : ChunkEntry) (n : Nat) (b : ChunkEntry) :
    continuesRun sameHeader (a.value 0) n (b.value 0) = continuesRun sameHeader a n b := by
  unfold continuesRun value
  by_cases ha : a.physicalChunkID = 0 <;> by_cases hb : b.physicalChunkID = 0
  · simp [ha, hb, zero]
  · simp [ha, hb, zero]
  · have hne : (0 == a.physicalChunkID + n) = false := beq_eq_false_iff_ne.mpr (by omega)
    simp [ha, hb, zero, hne]
  · simp [ha, hb]

theorem compressWith_value (pageStartChunk : Nat) (entries : List ChunkEntry) :
    compressWith sameHeader pageStartChunk (entries.map (·.value 0)) =
      compressWith sameHeader pageStartChunk entries := by
  refine place_runs_map (continuesRun_value sameHeader) (fun _ a _ => ?_) pageStartChunk entries
  unfold ofRun value
  by_cases ha : a.physicalChunkID = 0 <;> simp [ha, zero]

end

theorem map_value_eq_self_iff (entries : List ChunkEntry) :
    entries.map (·.value 0) = entries ↔ ∀ a ∈ entries, a.Normal := by
  have hmap : entries.map (·.value 0) = entries.map id ↔ ∀ a ∈ entries, a.value 0 = a :=
    map_inj_left
  rw [map_id] at hmap
  refine hmap.trans (forall₂_congr fun a _ => ⟨fun h hid => ?_, value_zero⟩)
  rw [← h, value, if_pos hid]
  rfl

/-! ## The write path and the repository -/

/-- The second chunk does not continue a run of the first with its header. -/
def CutBetween (a b : ChunkEntry) : Prop :=
  a.physicalChunkID ≠ 0 → b.physicalChunkID = a.physicalChunkID + 1 →
    a.encryption = b.encryption → a.encryption = none

/-- `last` is the last chunk of a run of `n` that began with `first`. -/
structure LastOfRun (first : ChunkEntry) (n : Nat) (last : ChunkEntry) : Prop where
  zero_iff : first.physicalChunkID = 0 ↔ last.physicalChunkID = 0
  next : first.physicalChunkID ≠ 0 →
    last.physicalChunkID + 1 = first.physicalChunkID + n ∧ last.encryption = first.encryption

theorem LastOfRun.self (b : ChunkEntry) : LastOfRun b 1 b := ⟨.rfl, fun _ => ⟨rfl, rfl⟩⟩

section

variable {first last b : ChunkEntry} {n : Nat}

theorem LastOfRun.continues (h : continuesRun (· == ·) first n b = true) :
    LastOfRun first (n + 1) b := by
  unfold continuesRun at h
  split at h
  · next hzero => exact ⟨iff_of_true hzero (beq_iff_eq.mp h), fun hne => absurd hzero hne⟩
  · next hne =>
    simp only [Bool.and_eq_true, beq_iff_eq] at h
    exact ⟨iff_of_false hne (by omega), fun _ => ⟨by omega, h.2.symm⟩⟩

/-- A chunk that continues the run in the repository is the last chunk's neighbour, and the
write path joins the two if they have no header. -/
theorem LastOfRun.continuesRun_iff (h : LastOfRun first n last) :
    continuesRun (fun a b => a == none && b == none) first n b = true ↔
      continuesRun (· == ·) first n b = true ∧ CutBetween last b := by
  unfold continuesRun CutBetween
  by_cases hzero : first.physicalChunkID = 0
  · simp [hzero, h.zero_iff.mp hzero]
  · obtain ⟨hid, henc⟩ := h.next hzero
    have hlast := mt h.zero_iff.mpr hzero
    rw [if_neg hzero, if_neg hzero, hid, henc]
    simp only [Bool.and_eq_true, beq_iff_eq]
    constructor
    · rintro ⟨hb, ha, hbn⟩
      exact ⟨⟨hb, ha.trans hbn.symm⟩, fun _ _ _ => ha⟩
    · rintro ⟨⟨hb, hsame⟩, hnone⟩
      have ha := hnone hlast hb hsame
      exact ⟨hb, ha, hsame ▸ ha⟩

theorem LastOfRun.cutBetween (h : LastOfRun first n last)
    (hcut : ¬ continuesRun (· == ·) first n b = true) : CutBetween last b := by
  intro hlast hid hsame
  have hfirst := mt h.zero_iff.mp hlast
  obtain ⟨hnext, henc⟩ := h.next hfirst
  refine absurd ?_ hcut
  rw [continuesRun, if_neg hfirst, hid, hnext, ← hsame, henc]
  simp

theorem compressFrom_eq_iff (h : LastOfRun first n last) (start : Nat) (l : List ChunkEntry) :
    place ofRun start (runsFrom (continuesRun fun a b => a == none && b == none) first n l) =
        place ofRun start (runsFrom (continuesRun (· == ·)) first n l) ↔
      IsChain CutBetween (last :: l) := by
  -- the induction follows the run in progress, which the two have in common
  induction l generalizing first last n start with
  | nil => simp [runsFrom]
  | cons b l ih =>
    rw [isChain_cons_cons, runsFrom, runsFrom]
    by_cases hjoins : continuesRun (· == ·) first n b = true
    · by_cases hcut : CutBetween last b
      · rw [if_pos (h.continuesRun_iff.mpr ⟨hjoins, hcut⟩), if_pos hjoins,
          ih (.continues hjoins), and_iff_right hcut]
      · rw [if_neg fun hboth => hcut (h.continuesRun_iff.mp hboth).2, if_pos hjoins]
        refine iff_of_false (fun heq => ?_) fun hchain => hcut hchain.1
        obtain ⟨k, rs, hruns, hk⟩ := runsFrom_head (continuesRun (· == ·)) l first (n + 1)
        rw [hruns] at heq
        have hcount := congrArg chunkCount (cons.inj heq).1
        simp only [chunkCount_ofRun] at hcount
        omega
    · rw [if_neg fun hboth => hjoins (h.continuesRun_iff.mp hboth).1, if_neg hjoins]
      simp only [place, cons.injEq, true_and]
      rw [ih (.self b), and_iff_right (h.cutBetween hjoins)]

end

def compressedPage (g : Geometry) (pageNo revision : Nat) (extents : List AllocationExtentRecord) :
    AllocationPageRecord :=
  { pageNo, pageBytes := g.pageBytes, chunkSizeBytes := g.chunkSizeBytes, revision, extents }

/-- The three compressions of a chunk map: their pages are well formed, expand to the map without
the headers of zero chunks, and compressing that again changes nothing. -/
theorem compress_expand (g : Geometry) (pageNo revision : Nat)
    (map : Fin g.chunksPerPage → ChunkEntry) :
    let entries := ofFn map
    let start := pageNo * g.chunksPerPage
    let kept := entries.map (·.value 0)
    let page := compressedPage g pageNo revision
    let repository := compressAllocationChunkMappingsWithHeaders start
    let commit := compressAllocationCommitChunkMappings start
    let client := compressMetadataAllocationPageWithHeaders start
    ((page (repository entries)).WF g ∧ repository kept = repository entries ∧
      expandAllocationChunkMappingsWithHeaders (page (repository entries)) = .ok kept) ∧
    ((page (commit entries)).WF g ∧ commit kept = commit entries ∧
      expandAllocationPageChunkMappings (page (commit entries)) = .ok kept) ∧
    ((page (client entries)).WF g ∧ client kept = client entries ∧
      expandMetadataAllocationPageWithHeaders (page (client entries)) = .ok kept) ∧
    (kept = entries ↔ ∀ i, (map i).Normal) ∧
    client entries = repository entries ∧
    (commit entries = repository entries ↔ IsChain CutBetween entries) := by
  intro entries start kept page repository commit client
  have hlen : entries.length = g.chunksPerPage := length_ofFn
  obtain ⟨hrepo, hrents⟩ := entries_compressWith eq_of_beq_headers hlen pageNo revision
  obtain ⟨hcommit, hcents⟩ := entries_compressWith eq_of_both_none hlen pageNo revision
  have hexpand := hrepo.expandAllocationChunkMappingsWithHeaders_eq.trans (congrArg _ hrents)
  refine ⟨⟨hrepo, compressWith_value _ _ _, hexpand⟩, ⟨hcommit, compressWith_value _ _ _,
    hcommit.expandAllocationPageChunkMappings_eq.trans (congrArg _ hcents)⟩,
    ⟨hrepo, compressWith_value _ _ _, hexpand⟩, ?_, rfl, ?_⟩
  · rw [map_value_eq_self_iff, forall_mem_ofFn_iff]
  · cases hentries : entries with
    | nil => simp [commit, repository, compressAllocationCommitChunkMappings,
        compressAllocationChunkMappingsWithHeaders, compressWith, runs, place]
    | cons a l => exact compressFrom_eq_iff (.self a) start l

/-- A zero chunk loses its header, and the write path does not join two chunks that the repository
joins. -/
theorem headers_not_kept_alike :
    let header : PayloadEncryptionHeader :=
      ⟨⟨"aes-256-gcm", "volume", "p", "kp", "d", "k", "o", "b", "00", "random", "a", "s", "t", 1, 1,
        1, 0, 4, 4⟩, 1, 0, false, 16⟩
    compressAllocationChunkMappingsWithHeaders 0 [⟨0, some header⟩] =
      compressAllocationChunkMappingsWithHeaders 0 [⟨0, none⟩] ∧
    compressAllocationCommitChunkMappings 0 [⟨1, some header⟩, ⟨2, some header⟩] ≠
      compressAllocationChunkMappingsWithHeaders 0 [⟨1, some header⟩, ⟨2, some header⟩] := by
  decide

end Namrbd
