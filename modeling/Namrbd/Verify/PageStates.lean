import Namrbd.Replication.Executor
import Namrbd.Verify.Plan

/-!
# Page states

The write path works on page states, tables of chunk entries by page number.
`IsPageState` says which chunk map a state was read from and which one it shows
now; `StatesShow` says so for a whole table. Opening a page, changing one entry
and turning a state back into a page keep the two maps in step.
-/

namespace Namrbd

open List Result Table Window

variable {cur orig : Nat → ChunkEntry} {rev : Nat → Nat} {chunk pageNo : Nat} {g : Geometry}
  {s : AllocationCommitPageState}

/-- A page state of the geometry, read from the map `orig` and showing `cur`; `rev`
gives the revisions of the pages. -/
structure IsPageState (g : Geometry) (rev : Nat → Nat) (orig cur : Nat → ChunkEntry)
    (s : AllocationCommitPageState) : Prop where
  pageBytes_eq : s.pageBytes = g.pageBytes
  chunkSizeBytes_eq : s.chunkSizeBytes = g.chunkSizeBytes
  revision_eq : s.revision = rev s.pageNo
  original_eq : s.originalChunkIDs =
    Window.window (fun chunk => (orig chunk).physicalChunkID) (s.pageNo * g.chunksPerPage)
      g.chunksPerPage
  entries_eq : s.entries = Window.window cur (s.pageNo * g.chunksPerPage) g.chunksPerPage

theorem pageOf_page_chunk (g : Geometry) (hge : pageNo * g.chunksPerPage ≤ chunk)
    (hlt : chunk < pageNo * g.chunksPerPage + g.chunksPerPage) : g.pageOf chunk = pageNo :=
  g.pageOf_eq_iff.mpr ⟨hge, hlt⟩

section PageState

theorem newAllocationCommitPageState_ok {page : AllocationPageRecord} (hwf : page.WF g)
    (hentry : ∀ chunk, g.pageOf chunk = page.pageNo → page.entryAt chunk = cur chunk)
    (hrev : page.revision = rev page.pageNo) :
    ∃ s, newAllocationCommitPageState page = .ok s ∧ s.pageNo = page.pageNo ∧
      IsPageState g rev cur cur s := by
  have hents : page.entries =
      window cur (page.pageNo * g.chunksPerPage) g.chunksPerPage := by
    rw [eq_window_iff]
    refine ⟨hwf.length_entries, fun i hi => ?_⟩
    rw [hwf.getElem?_entries hi, hwf.startChunk_eq,
      hentry _ (pageOf_page_chunk g (Nat.le_add_right _ i) (Nat.add_lt_add_left hi _))]
  unfold newAllocationCommitPageState
  rw [hwf.invalidGeometry_eq, if_neg Bool.false_ne_true, hwf.expandAllocationPageChunkMappings_eq]
  refine ⟨_, rfl, rfl, ⟨hwf.pageBytes_eq, hwf.chunkSizeBytes_eq, hrev, ?_, hents⟩⟩
  rw [hents, window, window, map_map]
  rfl

namespace IsPageState

section

variable (h : IsPageState g rev orig cur s)

include h

theorem pageStartChunk_eq : s.pageStartChunk = s.pageNo * g.chunksPerPage := by
  rw [AllocationCommitPageState.pageStartChunk, h.pageBytes_eq, h.chunkSizeBytes_eq,
    Geometry.chunksPerPage]

theorem length_entries : s.entries.length = g.chunksPerPage := by
  rw [h.entries_eq, length_window]

theorem inPage_iff :
    ¬ (chunk < s.pageStartChunk ∨ s.pageStartChunk + s.entries.length ≤ chunk) ↔
      g.pageOf chunk = s.pageNo := by
  rw [h.pageStartChunk_eq, h.length_entries, g.pageOf_eq_iff]
  omega

theorem getElem?_entries (hpage : g.pageOf chunk = s.pageNo) :
    s.entries[chunk - s.pageStartChunk]? = some (cur chunk) := by
  obtain ⟨hge, hlt⟩ := g.pageOf_eq_iff.mp hpage
  rw [h.pageStartChunk_eq, h.entries_eq, getElem?_window, if_pos (by omega),
    Nat.add_sub_cancel' hge]

theorem congr_cur {cur' : Nat → ChunkEntry}
    (heq : ∀ chunk, g.pageOf chunk = s.pageNo → cur' chunk = cur chunk) :
    IsPageState g rev orig cur' s := by
  refine { h with entries_eq := ?_ }
  rw [h.entries_eq]
  exact window_congr fun chunk hge hlt => (heq chunk (pageOf_page_chunk g hge hlt)).symm

theorem setEntry (hpage : g.pageOf chunk = s.pageNo) (a : ChunkEntry) :
    IsPageState g rev orig (Function.update cur chunk a)
      { s with entries := s.entries.set (chunk - s.pageStartChunk) a } := by
  refine { h with entries_eq := ?_ }
  obtain ⟨hge, hlt⟩ := g.pageOf_eq_iff.mp hpage
  rw [eq_window_iff, h.pageStartChunk_eq, h.entries_eq]
  refine ⟨by rw [length_set, length_window], fun i hi => ?_⟩
  by_cases hic : s.pageNo * g.chunksPerPage + i = chunk
  · have hi' : chunk - s.pageNo * g.chunksPerPage = i := by omega
    rw [hi', getElem?_set_self (by rw [length_window]; exact hi), hic, Function.update_self]
  · rw [getElem?_set_ne (by omega), getElem?_window, if_pos hi, Function.update_of_ne hic]

theorem toRecord_wf (hnormal : ∀ chunk, g.pageOf chunk = s.pageNo → (cur chunk).Normal) :
    s.toRecord.WF g ∧ ∀ chunk, g.pageOf chunk = s.pageNo → s.toRecord.entryAt chunk = cur chunk := by
  have hnorm : ∀ a ∈ s.entries, a.Normal := by
    intro a ha
    rw [h.entries_eq, window] at ha
    obtain ⟨i, hi, rfl⟩ := mem_map.mp ha
    exact hnormal _ (pageOf_page_chunk g (Nat.le_add_right _ _)
      (Nat.add_lt_add_left (mem_range.mp hi) _))
  obtain ⟨hwf, hents⟩ := compressWith_wf eq_of_both_none h.length_entries hnorm s.pageNo s.revision
  have hrec : s.toRecord = {
      pageNo := s.pageNo, pageBytes := g.pageBytes, chunkSizeBytes := g.chunkSizeBytes,
      revision := s.revision,
      extents := compressWith (fun a b => a == none && b == none) (s.pageNo * g.chunksPerPage)
        s.entries } := by
    rw [AllocationCommitPageState.toRecord, h.pageStartChunk_eq, h.pageBytes_eq,
      h.chunkSizeBytes_eq]
    rfl
  rw [hrec]
  refine ⟨hwf, fun chunk hpage => ?_⟩
  have hget := h.getElem?_entries hpage
  rw [h.pageStartChunk_eq] at hget
  rw [hents, hget, Option.getD_some]

end

end IsPageState

end PageState

/-! ## Tables of page states -/

/-- Every page state has the original and the current map. -/
def StatesShow (g : Geometry) (rev : Nat → Nat) (orig cur : Nat → ChunkEntry)
    (states : List AllocationCommitPageState) : Prop :=
  ∀ pageNo s, Table.get? (·.pageNo) pageNo states = some s → IsPageState g rev orig cur s

def HasState (states : List AllocationCommitPageState) (pageNo : Nat) : Prop :=
  (Table.get? (·.pageNo) pageNo states).isSome

section Tables

variable {states : List AllocationCommitPageState}

theorem statesShow_nil : StatesShow g rev orig cur [] := by
  intro pageNo s h
  cases h

theorem StatesShow.put (h : StatesShow g rev orig cur states) (hs : IsPageState g rev orig cur s) :
    StatesShow g rev orig cur (put (·.pageNo) s states) := by
  intro pageNo s' hget
  rw [get?_put] at hget
  split at hget
  · cases hget
    exact hs
  · exact h pageNo s' hget

theorem hasState_put :
    HasState (put (·.pageNo) s states) pageNo ↔ s.pageNo = pageNo ∨ HasState states pageNo := by
  unfold HasState
  rw [get?_put]
  split
  · next h => simp [h]
  · next h => simp [h]

end Tables

/-- Pages that are replaced by states of them show what the states show. -/
theorem PlanPages.toRecords {need : Nat → Prop} {pages pages' : List ResolvedAllocationPage}
    (h : PlanPages g orig need pages) (hnormal : ∀ chunk, (cur chunk).Normal)
    (hstates : Forall₂ (fun r r' => ∃ s, IsPageState g rev orig cur s ∧
      s.pageNo = r.page.pageNo ∧ r' = { r with page := s.toRecord }) pages pages') :
    PlanPages g cur need pages' ∧ ∀ r ∈ pages', r.page.revision = rev r.page.pageNo := by
  have hmem := fun r' (hr' : r' ∈ pages') => exists_of_mem_right hstates hr'
  refine ⟨⟨?_, ?_, ?_, ?_, ?_, ?_⟩, ?_⟩
  · intro r' hr'
    obtain ⟨r, -, s, hs, -, rfl⟩ := hmem r' hr'
    exact (hs.toRecord_wf fun chunk _ => hnormal chunk).1
  · intro r' hr' chunk hchunk
    obtain ⟨r, -, s, hs, -, rfl⟩ := hmem r' hr'
    exact (hs.toRecord_wf fun chunk _ => hnormal chunk).2 chunk hchunk
  · intro r' hr' chunk hchunk
    obtain ⟨r, hr, s, -, hno, rfl⟩ := hmem r' hr'
    exact (h.pageOf_eq r hr chunk hchunk).trans hno.symm
  · intro chunk hneed
    obtain ⟨r, hr, hcont⟩ := h.covers chunk hneed
    obtain ⟨_, hr', s, -, -, rfl⟩ := exists_of_mem_left hstates hr
    exact ⟨_, hr', hcont⟩
  · intro r' hr'
    obtain ⟨r, hr, s, -, -, rfl⟩ := hmem r' hr'
    exact h.used r hr
  · rw [map_eq_of_forall₂ (forall₂_map_left_iff.mpr (hstates.imp ?_))]
    · exact h.nodup
    · rintro r _ ⟨s, -, hno, rfl⟩
      exact hno
  · intro r' hr'
    obtain ⟨r, -, s, hs, -, rfl⟩ := hmem r' hr'
    exact hs.revision_eq

end Namrbd
