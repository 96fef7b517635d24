import Namrbd.Verify.CommitMetadata

/-!
# Rebasing a plan

After a lost race the write plans again and puts the ids it has into the latest
pages. Every plan then shows its own chunks as the write makes them and all other
chunks as they are now, so the commit view of the plans moves to the latest map.
-/

namespace Namrbd

open List Result

variable {g : Geometry} {req : WriteRequest} {planned live : Nat → ChunkEntry}
  {e e' : ExtentMappingRecord} {size : Nat} {m : Repository} {stores : PayloadStores}
  {f : Nat → Byte}

/-- What the pages of a rebased plan show. -/
def rebasedEntry (g : Geometry) (req : WriteRequest) (planned latest : Nat → ChunkEntry)
    (p : ExtentWritePlan) (c : Nat) : ChunkEntry :=
  if c ∈ extentChunks g p.extent req.offsetBytes req.lengthBytes then writeEntry g req planned c
  else latest c

theorem SameExtent.extentChunks_eq (h : SameExtent e e') (g : Geometry) (off len : Nat) :
    extentChunks g e' off len = extentChunks g e off len := by
  rw [extentChunks, extentChunks, h.logicalOffset_eq, h.endOffset_eq]

theorem SameExtent.touched_iff (h : SameExtent e e') {cs off len c : Nat} :
    e'.Touched cs off len c ↔ e.Touched cs off len c := by
  rw [ExtentMappingRecord.Touched, ExtentMappingRecord.Touched, h.hasChunk_iff]

section Rebase

variable {rev : Nat → Nat} {current latest : ExtentWritePlan} {shown : Nat → ChunkEntry}

/-- The merged pages show the current map with the write on top. -/
theorem mergedRetryAllocationPages_ok (hchunks : ChunkPlan g planned req current)
    (hshows : PlanShows g rev shown req.offsetBytes req.lengthBytes current)
    (hwrit : ∀ c, current.extent.Touched g.chunkSizeBytes req.offsetBytes req.lengthBytes c →
      writeEntry g req shown c = writeEntry g req planned c)
    (hsame : SameExtent current.extent latest.extent)
    (hlat : PlanShows g m.pageRevision (m.liveEntry g) req.offsetBytes req.lengthBytes latest)
    (hnormal : ∀ c, (m.liveEntry g c).Normal) :
    ∃ pages, mergedRetryAllocationPages current latest req noEncryptionHeaders = .ok pages ∧
      PlanPages g (rebasedEntry g req planned (m.liveEntry g) current)
        (latest.extent.Touched g.chunkSizeBytes req.offsetBytes req.lengthBytes) pages ∧
      ∀ r ∈ pages, r.page.revision = m.pageRevision r.page.pageNo := by
  have hpos := overlap_pos hchunks.aligned.length_pos hchunks.length_pos hchunks.overlaps
  obtain ⟨c0, hc0⟩ := exists_touched hchunks.aligned hchunks.length_pos hchunks.overlaps
  have hmem : ∀ {c}, c ∈ extentChunks g current.extent req.offsetBytes req.lengthBytes ↔ _ :=
    mem_extentChunks hchunks.aligned hchunks.length_pos hchunks.overlaps
  have hmapped : WrittenMapped g req shown current.extent := by
    intro c hc hskip
    have heq := hwrit c hc
    rw [writeEntry, writeEntry, if_neg (by rw [hskip]; exact Bool.false_ne_true),
      if_neg (by rw [hskip]; exact Bool.false_ne_true)] at heq
    rw [(ChunkEntry.mk.inj heq).1]
    exact hchunks.mapped c hc hskip
  have hmapNormal : ∀ c, (rebasedEntry g req planned (m.liveEntry g) current c).Normal := by
    intro c
    unfold rebasedEntry
    split
    · unfold writeEntry
      split
      · exact ChunkEntry.normal_zero
      · exact ChunkEntry.normal_of_none _
    · exact hnormal c
  unfold mergedRetryAllocationPages
  rw [if_neg (hlat.pages.ne_nil (hsame.touched_iff.mpr hc0)), if_neg (by
    have hcs := g.chunkSizeBytes_pos
    rw [hshows.chunkSizeBytes_eq]
    simp only [hshows.pages.ne_nil hc0, false_or]
    omega), overlapRange_of_overlaps hchunks.overlaps]
  dsimp only
  rw [if_neg (by omega)]
  refine (mapM_ok fun r hr => ?_).imp fun pages h =>
    ⟨h.1, hlat.pages.toRecords hmapNormal h.2⟩
  obtain ⟨s, hopen, hno, hs⟩ := newAllocationCommitPageState_ok (hlat.pages.wf r hr)
    (hlat.pages.entryAt_eq r hr) (hlat.revision_eq r hr)
  obtain ⟨s', happly, hno', hs'⟩ := applyWrite_ok hchunks.aligned hchunks.length_pos
    hchunks.overlaps hshows hmapped hs (rebasedEntry g req planned (m.liveEntry g) current) (by
      intro c _
      unfold rebasedEntry
      by_cases hc : c ∈ extentChunks g current.extent req.offsetBytes req.lengthBytes
      · rw [if_pos hc, if_pos hc, hwrit c (hmem.mp hc)]
      · rw [if_neg hc, if_neg hc])
  refine ⟨{ r with page := s'.toRecord }, ?_, s', hs', hno'.trans hno, rfl⟩
  rw [hopen, ok_bind, happly, ok_bind]
  rfl

/-- The plan over the current map, with the targets it had. -/
structure RebasedPlan (g : Geometry) (m : Repository) (req : WriteRequest)
    (planned : Nat → ChunkEntry) (p p' : ExtentWritePlan) : Prop where
  extent : SameExtent p.extent p'.extent
  mem : p'.extent ∈ m.overlapped req.offsetBytes req.lengthBytes
  targetIDs_eq : p'.targetIDs = p.targetIDs
  copyOnWrite_eq : p'.copyOnWrite = p.copyOnWrite
  shows : PlanShows g m.pageRevision (rebasedEntry g req planned (m.liveEntry g) p)
    req.offsetBytes req.lengthBytes p'

variable {base : Nat → ChunkEntry} {shownBy : ExtentWritePlan → Nat → ChunkEntry}

theorem rebaseExtent_ok {latestPlan : List ExtentWritePlan} {status status' : ExtentWriteStatus}
    (hrep : Represents g size m stores f)
    (hlat : IsWritePlans g m (m.liveEntry g) req.offsetBytes req.lengthBytes latestPlan)
    (hchunks : ChunkPlan g planned req status.plan)
    (hshows : PlanShows g rev shown req.offsetBytes req.lengthBytes status.plan) (hwrit : ∀ c,
      status.plan.extent.Touched g.chunkSizeBytes req.offsetBytes req.lengthBytes c →
        writeEntry g req shown c = writeEntry g req planned c)
    (hext : ∃ e ∈ m.overlapped req.offsetBytes req.lengthBytes,
      SameExtent status.plan.extent e) (h : rebaseExtent req latestPlan status = .ok status') :
    RebasedPlan g m req planned status.plan status'.plan ∧
      status' = { status with plan := status'.plan } := by
  obtain ⟨e, he, hsame⟩ := hext
  -- the latest plan has this extent, and no other with its id
  obtain ⟨p0, hp0, hext0⟩ := mem_map.mp (hlat.extents_eq ▸ he)
  unfold rebaseExtent at h
  cases hfind : latestPlan.reverse.find? (fun latest =>
      latest.extent.extentID = status.plan.extent.extentID) with
  | none =>
    refine absurd (find?_eq_none.mp hfind p0 (mem_reverse.mpr hp0)) ?_
    simp only [decide_eq_true_eq, not_not]
    rw [hext0]
    exact hsame.extentID_eq
  | some latest =>
    have hmem : latest ∈ latestPlan := mem_reverse.mp (mem_of_find?_eq_some hfind)
    have hid := find?_some hfind
    simp only [decide_eq_true_eq] at hid
    have hover : latest.extent ∈ m.overlapped req.offsetBytes req.lengthBytes :=
      hlat.extents_eq ▸ mem_map_of_mem hmem
    have heq : latest.extent = e := hrep.layout.eq_of_extentID (mem_overlapped.mp hover).1
      (mem_overlapped.mp he).1 (hid.trans hsame.extentID_eq.symm)
    have hplan := hlat.each latest hmem
    obtain ⟨pages, hpages, hshow, hrev⟩ := mergedRetryAllocationPages_ok hchunks hshows hwrit
      (heq ▸ hsame) hplan.toPlanShows (Repository.normal_liveEntry hrep.pagesWF)
    rw [hfind] at h
    dsimp only at h
    rw [hpages, ok_bind] at h
    cases h
    exact ⟨⟨heq ▸ hsame, hover, rfl, rfl, ⟨hplan.chunkSizeBytes_eq, hshow, hrev⟩⟩, rfl⟩

theorem rebaseWritePlanForRetry_ok {exec exec' : WriteExecution}
    (hrep : Represents g size m stores f) (hgeom : req.HasGeometry g)
    (hresv : Reserved g m req live planned exec.plans) (hne : exec.extents ≠ [])
    (hview : CommitView g rev req planned base shownBy exec.plans)
    (h : rebaseWritePlanForRetry m exec req = .ok exec') :
    ∃ (state : VolumeState) (extents : _),
      exec' = { exec with
        metadataEpoch := state.epoch, metadataRevision := state.revision, extents := extents } ∧
      Forall₂ (fun status status' => RebasedPlan g m req planned status.plan status'.plan ∧
        status' = { status with plan := status'.plan }) exec.extents extents := by
  unfold rebaseWritePlanForRetry at h
  rw [if_neg hne] at h
  obtain ⟨state, -, h⟩ := bind_eq_ok.mp h
  obtain ⟨latestPlan, hlat, h⟩ := bind_eq_ok.mp h
  obtain ⟨extents, hexts, h⟩ := bind_eq_ok.mp h
  cases h
  obtain ⟨status0, hstat0⟩ := exists_mem_of_ne_nil _ hne
  have hlen := (hresv.each status0.plan (mem_map_of_mem hstat0)).length_pos
  have hplans : IsWritePlans g m (m.liveEntry g) req.offsetBytes req.lengthBytes latestPlan := by
    unfold planRequest at hlat
    rw [hgeom.pageBytes_eq, hgeom.chunkSizeBytes_eq] at hlat
    exact planWrite_ok hrep.pagesWF hrep.layout hlen hlat
  refine ⟨state, extents, rfl, ?_⟩
  have hself : ∀ status ∈ exec.extents, status ∈ exec.extents := fun _ h => h
  refine ((forall₂_and_left _ _).mpr ⟨hself, mapM_eq_ok.mp hexts⟩).imp ?_
  rintro status status' ⟨hstat, hrun⟩
  have hmem : status.plan ∈ exec.plans := mem_map_of_mem hstat
  exact rebaseExtent_ok hrep hplans (hresv.each _ hmem) (hview.shows _ hmem)
    (hview.written _ hmem)
    (exists_of_mem_left hresv.extents (mem_map_of_mem hmem)) hrun

end Rebase

section Rebased

variable {p p' : ExtentWritePlan} {plans plans' : List ExtentWritePlan}

theorem RebasedPlan.writtenChunks_eq (h : RebasedPlan g m req planned p p') :
    writtenChunks g req p'.extent = writtenChunks g req p.extent := by
  rw [writtenChunks, writtenChunks, h.extent.extentChunks_eq]

theorem RebasedPlan.chunkPlan (h : RebasedPlan g m req planned p p')
    (hrep : Represents g size m stores f) (hplan : ChunkPlan g planned req p) :
    ChunkPlan g planned req p' where
  length_pos := hplan.length_pos
  aligned := hrep.layout.aligned (mem_overlapped.mp h.mem).1
  overlaps := (mem_overlapped.mp h.mem).2
  mapped := fun c hc => hplan.mapped c (h.extent.touched_iff.mp hc)

/-- A reservation survives its rebase. -/
theorem Reserved.rebase (h : Reserved g m req live planned plans)
    (hrep : Represents g size m stores f)
    (hreb : Forall₂ (RebasedPlan g m req planned) plans plans') :
    Reserved g m req live planned plans' := by
  have hback : ∀ p' ∈ plans', ∃ p ∈ plans, RebasedPlan g m req planned p p' :=
    fun p' hp' => exists_of_mem_right hreb hp'
  refine ⟨?_, ?_, ?_, ?_, ?_, ?_, ?_, ?_⟩
  · -- extents with the same ids are the same
    have hids : Forall₂ (fun p' e => p'.extent = e) plans'
        (m.overlapped req.offsetBytes req.lengthBytes) := by
      have hflip : Forall₂ (fun p' p => RebasedPlan g m req planned p p') plans' plans :=
        hreb.flip
      have hself : ∀ e ∈ m.overlapped req.offsetBytes req.lengthBytes,
          e ∈ m.overlapped req.offsetBytes req.lengthBytes := fun _ h => h
      have hmem : Forall₂ (fun p e => e ∈ m.overlapped req.offsetBytes req.lengthBytes ∧
          SameExtent p.extent e) plans (m.overlapped req.offsetBytes req.lengthBytes) :=
        ((forall₂_and_left _ _).mpr ⟨hself, (forall₂_map_left_iff.mp h.extents).flip⟩).flip
      refine (forall₂_comp hflip hmem).imp ?_
      rintro p' e ⟨p, hp, he, hsame⟩
      exact hrep.layout.eq_of_extentID (mem_overlapped.mp hp.mem).1 (mem_overlapped.mp he).1
        (hp.extent.extentID_eq.trans hsame.extentID_eq.symm)
    rw [map_eq_of_forall₂ hids.flip]
    exact .refl _
  · intro p' hp'
    obtain ⟨p, hp, hr⟩ := hback p' hp'
    exact hr.chunkPlan hrep (h.each p hp)
  · intro p' hp' c hc
    obtain ⟨p, hp, hr⟩ := hback p' hp'
    exact h.same p hp c (hr.extent.touched_iff.mp hc)
  · intro p' hp' r
    obtain ⟨p, hp, hr⟩ := hback p' hp'
    rw [hr.targetIDs_eq, hr.extent.isWriteTarget_iff]
    exact h.targets p hp r
  · intro p' hp' c hc
    obtain ⟨p, hp, hr⟩ := hback p' hp'
    exact h.lt_next p hp c (hr.writtenChunks_eq ▸ hc)
  · intro p' hp' c hc
    obtain ⟨p, hp, hr⟩ := hback p' hp'
    exact h.unmapped p hp c (hr.writtenChunks_eq ▸ hc)
  · intro p' hp' c hc
    obtain ⟨p, hp, hr⟩ := hback p' hp'
    rw [hr.copyOnWrite_eq]
    exact h.remaps p hp c (hr.writtenChunks_eq ▸ hc)
  · intro p' hp' c hc q' hq' c' hc'
    obtain ⟨p, hp, hr⟩ := hback p' hp'
    obtain ⟨q, hq, hs⟩ := hback q' hq'
    exact h.inj p hp c (hr.writtenChunks_eq ▸ hc) q hq c' (hs.writtenChunks_eq ▸ hc')

theorem commitView_of_rebased (hrep : Represents g size m stores f)
    (hplans : ∀ p ∈ plans, ChunkPlan g planned req p)
    (hreb : Forall₂ (RebasedPlan g m req planned) plans plans') :
    CommitView g m.pageRevision req planned (m.liveEntry g)
      (rebasedEntry g req planned (m.liveEntry g)) plans' := by
  have hback : ∀ p' ∈ plans', ∃ p ∈ plans, RebasedPlan g m req planned p p' :=
    fun p' hp' => exists_of_mem_right hreb hp'
  refine ⟨?_, ?_, ?_, Repository.normal_liveEntry hrep.pagesWF⟩
  · intro p' hp'
    obtain ⟨p, hp, hr⟩ := hback p' hp'
    have heq : rebasedEntry g req planned (m.liveEntry g) p' =
        rebasedEntry g req planned (m.liveEntry g) p := by
      funext c
      rw [rebasedEntry, rebasedEntry, hr.extent.extentChunks_eq]
    rw [heq]
    exact hr.shows
  · intro p' hp' c hc
    obtain ⟨p, hp, hr⟩ := hback p' hp'
    have hplan := hr.chunkPlan hrep (hplans p hp)
    have hmem := (mem_extentChunks hplan.aligned hplan.length_pos hplan.overlaps).mpr hc
    have heq : rebasedEntry g req planned (m.liveEntry g) p' c = writeEntry g req planned c :=
      if_pos hmem
    by_cases hskip : req.skips g c = true
    · rw [writeEntry, writeEntry, if_pos hskip, if_pos hskip]
    · rw [writeEntry, if_neg hskip, heq, writeEntry, if_neg hskip]
  · intro p' hp' c hc
    obtain ⟨p, hp, hr⟩ := hback p' hp'
    have hplan := hr.chunkPlan hrep (hplans p hp)
    exact if_neg fun hmem =>
      hc p' hp' ((mem_extentChunks hplan.aligned hplan.length_pos hplan.overlaps).mp hmem)

end Rebased

end Namrbd
