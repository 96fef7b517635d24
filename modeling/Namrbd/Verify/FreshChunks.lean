import Namrbd.Verify.PageStates

/-!
# Fresh chunk ids

What planning does to the chunk map: the touched chunks that are zero, or that a
snapshot still needs, get the next ids of the sequence in order, except the
chunks a zero-semantic write covers; every other chunk keeps its entry
(`plannedEntry`).
-/

namespace Namrbd

open Function List Repository Result Table

variable {chunk size : Nat} {g : Geometry} {fresh : List Nat} {m : Repository}
  {cur orig : Nat → ChunkEntry} {req : WriteRequest} {states : List AllocationCommitPageState}
  {rev : Nat → Nat} {plan : List ExtentWritePlan}

/-- The chunk is covered by a zero-semantic write: it is not written, and the commit
unmaps it. -/
def WriteRequest.skips (req : WriteRequest) (g : Geometry) (chunk : Nat) : Bool :=
  req.zeroSemantic && coversChunk g.chunkSizeBytes req.offsetBytes req.lengthBytes chunk

/-- A chunk that is written and has no object, or may not be written in place. -/
def needsFreshChunk (g : Geometry) (m : Repository) (req : WriteRequest) (chunk : Nat) : Bool :=
  !req.skips g chunk &&
    ((m.liveEntry g chunk).physicalChunkID == 0 || sourceWriteRequiresCopyOnWrite m)

/-- The chunks of an extent that a request touches. -/
def extentChunks (g : Geometry) (extent : ExtentMappingRecord) (off len : Nat) : List Nat :=
  touchedChunks g.chunkSizeBytes (max off extent.logicalOffset)
    (min (off + len) extent.endOffset - max off extent.logicalOffset)

/-- The chunks a write needs fresh ids for, in the order it gets them. -/
def freshChunks (g : Geometry) (m : Repository) (req : WriteRequest) : List Nat :=
  (m.overlapped req.offsetBytes req.lengthBytes).flatMap fun extent =>
    (extentChunks g extent req.offsetBytes req.lengthBytes).filter (needsFreshChunk g m req)

/-- The map with the ids from `start` on given to the chunks of `fresh`. -/
def plannedEntry (cur : Nat → ChunkEntry) (fresh : List Nat) (start chunk : Nat) : ChunkEntry :=
  if chunk ∈ fresh then ⟨start + fresh.idxOf chunk, (cur chunk).encryption⟩ else cur chunk

def Repository.Touches (m : Repository) (g : Geometry) (off len chunk : Nat) : Prop :=
  ∃ e ∈ m.extents, e.Touched g.chunkSizeBytes off len chunk

section ExtentChunks

variable {off len : Nat} {e : ExtentMappingRecord}

section

variable (ha : e.Aligned g.chunkSizeBytes) (hlen : 0 < len) (hov : e.overlaps off len = true)

include ha hlen hov

theorem mem_extentChunks :
    chunk ∈ extentChunks g e off len ↔ e.Touched g.chunkSizeBytes off len chunk := by
  have hpos := overlap_pos ha.length_pos hlen hov
  rw [extentChunks, mem_touchedChunks g.chunkSizeBytes_pos (by omega),
    hits_overlap_iff g.chunkSizeBytes_pos ha hlen hov]
  rfl

theorem exists_touched : ∃ chunk, e.Touched g.chunkSizeBytes off len chunk := by
  have hpos := overlap_pos ha.length_pos hlen hov
  refine ⟨max off e.logicalOffset / g.chunkSizeBytes, (mem_extentChunks ha hlen hov).mp ?_⟩
  rw [extentChunks, mem_touchedChunks g.chunkSizeBytes_pos (by omega), Hits]
  have hle := Nat.div_mul_le_self (max off e.logicalOffset) g.chunkSizeBytes
  have hlt : max off e.logicalOffset < max off e.logicalOffset / g.chunkSizeBytes *
      g.chunkSizeBytes + g.chunkSizeBytes := Nat.lt_div_mul_add g.chunkSizeBytes_pos
  omega

end

theorem nodup_extentChunks (e : ExtentMappingRecord) : (extentChunks g e off len).Nodup :=
  nodup_range'

theorem coversChunk_overlap (hin : e.HasChunk g.chunkSizeBytes chunk) :
    coversChunk g.chunkSizeBytes (max off e.logicalOffset)
        (min (off + len) e.endOffset - max off e.logicalOffset) chunk =
      coversChunk g.chunkSizeBytes off len chunk := by
  have hcs := g.chunkSizeBytes_pos
  unfold ExtentMappingRecord.HasChunk at hin
  unfold coversChunk
  rw [decide_eq_decide]
  omega

theorem mem_overlapped : e ∈ m.overlapped off len ↔ e ∈ m.extents ∧ e.overlaps off len = true :=
  mem_filter

theorem mem_freshChunks (hlay : Layout g size m.extents) (hlen : 0 < req.lengthBytes) :
    chunk ∈ freshChunks g m req ↔ m.Touches g req.offsetBytes req.lengthBytes chunk ∧
      needsFreshChunk g m req chunk = true := by
  unfold freshChunks Touches
  simp only [mem_flatMap, mem_filter]
  constructor
  · rintro ⟨e, he, hchunk, hneeds⟩
    obtain ⟨hmem, hov⟩ := mem_overlapped.mp he
    exact ⟨⟨e, hmem, (mem_extentChunks (hlay.aligned hmem) hlen hov).mp hchunk⟩, hneeds⟩
  rintro ⟨⟨e, hmem, htouch⟩, hneeds⟩
  have hov := overlaps_of_hits htouch.1 htouch.2
  exact ⟨e, mem_overlapped.mpr ⟨hmem, hov⟩,
    (mem_extentChunks (hlay.aligned hmem) hlen hov).mpr htouch, hneeds⟩

theorem nodup_freshChunks (hlay : Layout g size m.extents) (hlen : 0 < req.lengthBytes) :
    (freshChunks g m req).Nodup := by
  refine nodup_flatMap.mpr ⟨fun e _ => (nodup_extentChunks e).filter _, ?_⟩
  have hnodup : (m.overlapped req.offsetBytes req.lengthBytes).Nodup :=
    (hlay.sorted.imp fun h => ne_of_apply_ne _ (ne_of_lt h)).filter _
  -- distinct extents share no chunk
  refine (hnodup.imp_of_mem ?_)
  intro e e' he he' hne chunk hc hc'
  obtain ⟨hmem, hov⟩ := mem_overlapped.mp he
  obtain ⟨hmem', hov'⟩ := mem_overlapped.mp he'
  have ht := (mem_extentChunks (hlay.aligned hmem) hlen hov).mp (mem_of_mem_filter hc)
  have ht' := (mem_extentChunks (hlay.aligned hmem') hlen hov').mp (mem_of_mem_filter hc')
  exact hne (hlay.eq_of_hasChunk hmem hmem' ht.2 ht'.2)

end ExtentChunks

section PlannedEntry

variable {start : Nat}

@[simp] theorem plannedEntry_nil (cur : Nat → ChunkEntry) (start : Nat) :
    plannedEntry cur [] start = cur := by
  funext chunk
  simp [plannedEntry]

theorem plannedEntry_of_notMem (h : chunk ∉ fresh) : plannedEntry cur fresh start chunk = cur chunk :=
  if_neg h

theorem plannedEntry_of_mem (h : chunk ∈ fresh) :
    plannedEntry cur fresh start chunk = ⟨start + fresh.idxOf chunk, (cur chunk).encryption⟩ :=
  if_pos h

theorem plannedEntry_bounds (h : chunk ∈ fresh) :
    start ≤ (plannedEntry cur fresh start chunk).physicalChunkID ∧
      (plannedEntry cur fresh start chunk).physicalChunkID < start + fresh.length := by
  rw [plannedEntry_of_mem h]
  have := idxOf_lt_length_iff.mpr h
  exact ⟨Nat.le_add_right _ _, Nat.add_lt_add_left this _⟩

theorem plannedEntry_cons (h : chunk ∉ fresh) :
    plannedEntry cur (chunk :: fresh) start =
      plannedEntry (update cur chunk { cur chunk with physicalChunkID := start }) fresh
        (start + 1) := by
  funext c
  by_cases hc : c = chunk
  · subst hc
    rw [plannedEntry_of_mem mem_cons_self, plannedEntry_of_notMem h, update_self, idxOf_cons_self]
    rfl
  · unfold plannedEntry
    rw [update_of_ne hc, idxOf_cons_ne _ (Ne.symm hc)]
    simp only [mem_cons, hc, false_or]
    split
    · rw [Nat.succ_eq_add_one, Nat.add_comm (fresh.idxOf c) 1, Nat.add_assoc]
    · rfl

theorem normal_plannedEntry (hstart : 0 < start) (hcur : (cur chunk).Normal) :
    (plannedEntry cur fresh start chunk).Normal := by
  unfold plannedEntry
  split
  · intro hid
    dsimp only at hid
    omega
  · exact hcur

end PlannedEntry

section Collect

variable {entry : Nat → ChunkEntry} {need : Nat → Prop} {pages : List ResolvedAllocationPage}

theorem addPageStates_ok (hpages : PlanPages g entry need pages)
    (hrev : ∀ r ∈ pages, r.page.revision = rev r.page.pageNo)
    (hstates : StatesShow g rev entry entry states) :
    ∃ states', addPageStates pages states = .ok states' ∧ StatesShow g rev entry entry states' ∧
      (∀ pageNo, HasState states pageNo → HasState states' pageNo) ∧
      ∀ r ∈ pages, HasState states' r.page.pageNo := by
  have hloop : ∃ states', addPageStates pages states = .ok states' ∧
      (StatesShow g rev entry entry states' ∧
        (∀ pageNo, HasState states pageNo → HasState states' pageNo) ∧
        ∀ r ∈ pages, HasState states' r.page.pageNo) := by
    refine foldlM_ok (fun (done : List ResolvedAllocationPage) states' =>
        StatesShow g rev entry entry states' ∧
        (∀ pageNo, HasState states pageNo → HasState states' pageNo) ∧
        ∀ r ∈ done, HasState states' r.page.pageNo) ⟨hstates, fun _ h => h, by simp⟩ ?_
    rintro done r rest states' hl ⟨hshow, hkeep, hdone⟩
    have hr : r ∈ pages := by rw [hl]; exact mem_append_right _ mem_cons_self
    cases hget : get? (·.pageNo) r.page.pageNo states' with
    | some s =>
      refine ⟨states', rfl, hshow, hkeep, ?_⟩
      intro q hq
      rcases mem_append.mp hq with hq | hq
      · exact hdone q hq
      · rw [mem_singleton.mp hq, HasState, hget]
        rfl
    | none =>
      obtain ⟨s, hs, hno, hstate⟩ := newAllocationCommitPageState_ok (hpages.wf r hr)
        (hpages.entryAt_eq r hr) (hrev r hr)
      refine ⟨put (·.pageNo) s states', by dsimp only; rw [hs]; rfl, hshow.put hstate,
        fun n hn => hasState_put.mpr (.inr (hkeep n hn)), ?_⟩
      intro q hq
      rcases mem_append.mp hq with hq | hq
      · exact hasState_put.mpr (.inr (hdone q hq))
      · rw [mem_singleton.mp hq]
        exact hasState_put.mpr (.inl hno)
  exact hloop

theorem filterMap_eq_map_filter {α β : Type} {l : List α} {f : α → Option β} {p : α → Bool}
    {h : α → β} (hf : ∀ a ∈ l, f a = if p a then some (h a) else none) :
    l.filterMap f = (l.filter p).map h := by
  rw [← filterMap_eq_filter, map_filterMap]
  refine filterMap_congr fun a ha => ?_
  rw [hf a ha]
  cases hp : p a <;> simp [Option.guard, hp]

/-- The chunks that get fresh ids. -/
theorem pendingChunks_eq {p : ExtentWritePlan} (ha : p.extent.Aligned g.chunkSizeBytes)
    (hlen : 0 < req.lengthBytes) (hov : p.extent.overlaps req.offsetBytes req.lengthBytes = true)
    (hp : IsWritePlan g m (m.liveEntry g) req.offsetBytes req.lengthBytes p)
    (hstates : StatesShow g rev orig (m.liveEntry g) states)
    (hhas : ∀ r ∈ p.allocationPages, HasState states r.page.pageNo) :
    pendingChunks states p req.zeroSemantic (max req.offsetBytes p.extent.logicalOffset)
        (min (req.offsetBytes + req.lengthBytes) p.extent.endOffset -
          max req.offsetBytes p.extent.logicalOffset) =
      ((extentChunks g p.extent req.offsetBytes req.lengthBytes).filter
        (needsFreshChunk g m req)).map fun chunk => (g.pageOf chunk, chunk) := by
  unfold pendingChunks
  rw [hp.chunkSizeBytes_eq]
  refine filterMap_eq_map_filter fun chunk hchunk => ?_
  have htouch := (mem_extentChunks ha hlen hov).mp hchunk
  rw [coversChunk_overlap htouch.2]
  obtain ⟨r, hr, hfind, hpage⟩ := hp.pages.find?_containsChunk htouch
  obtain ⟨s, hget⟩ := Option.isSome_iff_exists.mp (hhas r hr)
  have hstate := hstates _ _ hget
  have hno : s.pageNo = g.pageOf chunk := (key_of_get? hget).trans hpage.symm
  have hs : allocationPlanStateForLogicalChunk states p.allocationPages chunk = some s := by
    unfold allocationPlanStateForLogicalChunk
    simp only [hfind, Option.bind_eq_bind, Option.bind_some, hget,
      if_neg (hstate.inPage_iff.mpr hno.symm)]
  rw [hs]
  dsimp only
  rw [hstate.getElem?_entries hno.symm, Option.getD_some, hno, hp.copyOnWrite_eq]
  unfold needsFreshChunk WriteRequest.skips
  cases hskip : req.zeroSemantic &&
      coversChunk g.chunkSizeBytes req.offsetBytes req.lengthBytes chunk with
  | true => simp
  | false =>
    cases hcow : sourceWriteRequiresCopyOnWrite m with
    | true => simp
    | false =>
      by_cases hid : (m.liveEntry g chunk).physicalChunkID = 0
      · simp [hid]
      · simp [hid]

/-- What is collected over all extents. -/
theorem collectExtent_ok (hlay : Layout g size m.extents) (hlen : 0 < req.lengthBytes)
    (hplan : IsWritePlans g m (m.liveEntry g) req.offsetBytes req.lengthBytes plan) :
    ∃ states, plan.foldlM (collectExtent req) ([], []) =
        .ok (states, (freshChunks g m req).map fun chunk => (g.pageOf chunk, chunk)) ∧
      StatesShow g m.pageRevision (m.liveEntry g) (m.liveEntry g) states ∧
      ∀ p ∈ plan, ∀ r ∈ p.allocationPages, HasState states r.page.pageNo := by
  let pendingOf := fun p : ExtentWritePlan =>
    ((extentChunks g p.extent req.offsetBytes req.lengthBytes).filter
      (needsFreshChunk g m req)).map fun chunk => (g.pageOf chunk, chunk)
  have hloop : ∃ acc, plan.foldlM (collectExtent req) ([], []) = .ok acc ∧
      acc.2 = plan.flatMap pendingOf ∧
      StatesShow g m.pageRevision (m.liveEntry g) (m.liveEntry g) acc.1 ∧
      ∀ p ∈ plan, ∀ r ∈ p.allocationPages, HasState acc.1 r.page.pageNo := by
    refine foldlM_ok (fun (done : List ExtentWritePlan)
        (acc : List AllocationCommitPageState × List (Nat × Nat)) => acc.2 = done.flatMap pendingOf ∧
        StatesShow g m.pageRevision (m.liveEntry g) (m.liveEntry g) acc.1 ∧
        ∀ p ∈ done, ∀ r ∈ p.allocationPages, HasState acc.1 r.page.pageNo)
      ⟨rfl, statesShow_nil, by simp⟩ ?_
    rintro done p rest ⟨states, pending⟩ hl ⟨hpending, hshow, hhas⟩
    have hp : p ∈ plan := by rw [hl]; exact mem_append_right _ mem_cons_self
    have hplanned := hplan.each p hp
    obtain ⟨hmem, hov⟩ := mem_overlapped.mp (hplan.extents_eq ▸ mem_map_of_mem hp)
    have ha := hlay.aligned hmem
    have hpos := overlap_pos ha.length_pos hlen hov
    obtain ⟨chunk, htouch⟩ := exists_touched ha hlen hov
    have hguard : ¬ (p.chunkSizeBytes = 0 ∨ p.allocationPages = []) :=
      not_or.mpr ⟨hplanned.chunkSizeBytes_eq ▸ g.chunkSizeBytes_pos.ne',
        hplanned.pages.ne_nil htouch⟩
    obtain ⟨states', hadd, hshow', hkeep, hpages⟩ :=
      addPageStates_ok hplanned.pages hplanned.revision_eq hshow
    have hpend := pendingChunks_eq ha hlen hov hplanned hshow' hpages
    refine ⟨(states', pending ++ pendingOf p), ?_, ?_, hshow', ?_⟩
    · unfold collectExtent
      rw [if_neg hguard, overlapRange_of_overlaps hov]
      dsimp only
      rw [if_neg (by omega), hadd, ok_bind, hpend]
      rfl
    · dsimp only at hpending ⊢
      rw [hpending, flatMap_append]
      simp
    · intro q hq
      rcases mem_append.mp hq with hq | hq
      · exact fun r hr => hkeep _ (hhas q hq r hr)
      · rw [mem_singleton.mp hq]
        exact hpages
  obtain ⟨⟨states, pending⟩, hrun, hpending, hshow, hhas⟩ := hloop
  refine ⟨states, ?_, hshow, hhas⟩
  rw [hrun]
  have hfresh : (freshChunks g m req).map (fun chunk => (g.pageOf chunk, chunk)) =
      plan.flatMap pendingOf := by
    rw [freshChunks, ← hplan.extents_eq, flatMap_map, map_flatMap]
  rw [hfresh, ← hpending]

end Collect

section Assign

theorem assignChunkID_show (hstates : StatesShow g rev orig cur states) (chunk id : Nat) :
    StatesShow g rev orig (update cur chunk { cur chunk with physicalChunkID := id })
        (assignChunkID states (g.pageOf chunk) chunk id) ∧
      ∀ pageNo, HasState states pageNo →
        HasState (assignChunkID states (g.pageOf chunk) chunk id) pageNo := by
  have hother : ∀ c, g.pageOf c ≠ g.pageOf chunk →
      update cur chunk { cur chunk with physicalChunkID := id } c = cur c :=
    fun c hc => update_of_ne (fun heq => hc (congrArg g.pageOf heq)) _ _
  unfold assignChunkID
  cases hget : get? (·.pageNo) (g.pageOf chunk) states with
  | none =>
    refine ⟨fun pageNo s hs => (hstates pageNo s hs).congr_cur fun c hc => hother c ?_,
      fun _ h => h⟩
    intro heq
    have hno : s.pageNo = pageNo := key_of_get? hs
    rw [← heq, hc, hno, hs] at hget
    cases hget
  | some s =>
    have hs := hstates _ _ hget
    have hno : s.pageNo = g.pageOf chunk := key_of_get? hget
    have hentry := hs.getElem?_entries hno.symm
    dsimp only
    rw [modify_eq_set_getElem?, hentry]
    refine ⟨fun pageNo s' hget' => ?_, fun n hn => hasState_put.mpr (.inr hn)⟩
    -- the other states show the changed map too, since it differs on this page only
    rw [get?_put] at hget'
    split at hget'
    · cases hget'
      exact hs.setEntry hno.symm _
    next hne =>
    refine (hstates pageNo s' hget').congr_cur fun c hc => hother c ?_
    have hkey : s'.pageNo = pageNo := key_of_get? hget'
    rw [hc, hkey, ← hno]
    exact Ne.symm hne

theorem foldl_assignChunkID_show (hnodup : fresh.Nodup) (start : Nat) :
    ∀ (k : Nat) (cur : Nat → ChunkEntry) (states : List AllocationCommitPageState),
      StatesShow g rev orig cur states →
      let states' := ((fresh.map fun chunk => (g.pageOf chunk, chunk)).zipIdx k).foldl
        (fun states ((pageNo, chunk), i) => assignChunkID states pageNo chunk (start + i)) states
      StatesShow g rev orig (plannedEntry cur fresh (start + k)) states' ∧
        ∀ pageNo, HasState states pageNo → HasState states' pageNo := by
  induction fresh with
  | nil =>
    intro k cur states hstates
    refine ⟨?_, fun _ h => h⟩
    exact hstates
  | cons chunk fresh ih =>
    intro k cur states hstates
    obtain ⟨hnotMem, hrest⟩ := nodup_cons.mp hnodup
    obtain ⟨hshow, hkeep⟩ := assignChunkID_show hstates chunk (start + k)
    obtain ⟨hshow', hkeep'⟩ := ih hrest (k + 1) _ _ hshow
    rw [plannedEntry_cons hnotMem]
    exact ⟨hshow', fun n hn => hkeep' n (hkeep n hn)⟩

end Assign

/-! ## Planning the allocation -/

def Repository.takeChunkIDs (m : Repository) (count : Nat) : Repository :=
  if count = 0 then m else { m with nextChunkID := m.getNextChunkID + count }

section Prepare

/-- A plan gets its ids, one range for all its pending chunks. -/
theorem prepareWritePlanAllocations_ok (hwf : m.PagesWF g) (hlay : Layout g size m.extents)
    (hlen : 0 < req.lengthBytes) {state : VolumeState} (hvol : m.volume = some state)
    (hplan : IsWritePlans g m (m.liveEntry g) req.offsetBytes req.lengthBytes plan) :
    ∃ plan', prepareWritePlanAllocations m plan req =
        .ok (plan', m.takeChunkIDs (freshChunks g m req).length) ∧
      IsWritePlans g m (plannedEntry (m.liveEntry g) (freshChunks g m req) m.getNextChunkID)
        req.offsetBytes req.lengthBytes plan' := by
  obtain ⟨states, hcollect, hshow, hhas⟩ := collectExtent_ok hlay hlen hplan
  unfold prepareWritePlanAllocations
  rw [hcollect, ok_bind]
  dsimp only
  by_cases hnone : freshChunks g m req = []
  · rw [if_pos (by rw [hnone]; rfl), hnone, plannedEntry_nil]
    exact ⟨plan, rfl, hplan⟩
  have hcount : (freshChunks g m req).length ≠ 0 := by simpa using hnone
  have hallocate : m.allocateChunkIDs (freshChunks g m req).length =
      .ok (m.getNextChunkID, m.takeChunkIDs (freshChunks g m req).length) := by
    unfold allocateChunkIDs takeChunkIDs
    rw [if_neg hcount, if_neg hcount, getVolumeState, hvol]
    rfl
  obtain ⟨hshow', hkeep⟩ := foldl_assignChunkID_show (nodup_freshChunks hlay hlen)
    m.getNextChunkID 0 _ _ hshow
  rw [if_neg (by simpa using hnone), length_map, hallocate, ok_bind]
  refine ⟨_, rfl, ?_, ?_⟩
  · rw [← hplan.extents_eq, map_map]
    rfl
  intro p' hp'
  obtain ⟨p, hp, rfl⟩ := mem_map.mp hp'
  have hplanned := hplan.each p hp
  obtain ⟨hpages, hrev⟩ := hplanned.pages.toRecords
    (fun chunk => normal_plannedEntry m.getNextChunkID_pos (normal_liveEntry hwf chunk))
    (show Forall₂ _ _ (withPageStates _ p).allocationPages from
      forall₂_map_right_iff.mpr (forall₂_same.mpr fun r hr => by
        obtain ⟨s, hget⟩ := Option.isSome_iff_exists.mp (hkeep _ (hhas p hp r hr))
        exact ⟨s, hshow' _ _ hget, key_of_get? hget, by rw [hget]⟩))
  exact ⟨⟨hplanned.chunkSizeBytes_eq, hpages, hrev⟩, hplanned.copyOnWrite_eq, hplanned.base,
    hplanned.targets⟩

end Prepare

end Namrbd
