import Namrbd.Verify.FlatVolume
import Namrbd.Verify.Views

/-!
# The delta of a clone

A write to a clone is planned on the clone's view and commits by putting whole pages
into its delta (`DeltaPut`): it sets all chunks it does not touch back to what they were
when it was planned. So two writes to one page keep each other's chunks if each of them
commits while the pages are still those it was planned from, and only then.
-/

namespace Namrbd

open Function LegacyVolume List Repository Result Table WriteExecution

variable {g : Geometry} {m m' v : Repository} {exec : WriteExecution} {size chunk : Nat} {ι : Type}

section Begin

variable {req : WriteRequest} {plan plan' : List ExtentWritePlan}

theorem prepareWritePlanAllocations_view (g : Geometry) (base delta : List AllocationPageRecord)
    (h : prepareWritePlanAllocations m plan req = .ok (plan', m')) :
    ∃ next, m' = { m with nextChunkID := next } ∧
      prepareWritePlanAllocations (m.view g base delta) plan req =
        .ok (plan', { m.view g base delta with nextChunkID := next }) := by
  unfold prepareWritePlanAllocations at h ⊢
  obtain ⟨⟨states, pending⟩, hcollect, h⟩ := bind_eq_ok.mp h
  rw [hcollect, ok_bind]
  dsimp only at h ⊢
  split at h
  · next hnil =>
    cases h
    exact ⟨m.nextChunkID, rfl, by rw [if_pos hnil]; rfl⟩
  next hne =>
  rw [if_neg hne]
  obtain ⟨⟨start, m1⟩, hallocate, h⟩ := bind_eq_ok.mp h
  cases h
  have hcount : pending.length ≠ 0 := by simpa using hne
  rw [allocateChunkIDs, if_neg hcount] at hallocate
  obtain ⟨state, hstate, hallocate⟩ := bind_eq_ok.mp hallocate
  cases hallocate
  refine ⟨_, rfl, ?_⟩
  have hview : (m.view g base delta).allocateChunkIDs pending.length =
      .ok (m.getNextChunkID, { m.view g base delta with
        nextChunkID := m.getNextChunkID + pending.length }) := by
    rw [allocateChunkIDs, if_neg hcount]
    change (m.getVolumeState >>= _) = _
    rw [hstate]
    rfl
  rw [hview]
  rfl

theorem nextChunkID_of_beginCloneWrite {cloneID : String}
    (h : beginCloneWrite m cloneID req = .ok (exec, m')) :
    ∃ next, m' = { m with nextChunkID := next } := by
  obtain ⟨state, -, h⟩ := bind_eq_ok.mp h
  obtain ⟨-, h⟩ := throwIf_eq_ok.mp h
  obtain ⟨plan, -, h⟩ := bind_eq_ok.mp h
  obtain ⟨⟨plan', m1⟩, hprep, h⟩ := bind_eq_ok.mp h
  cases h
  obtain ⟨next, hnext, -⟩ :=
    prepareWritePlanAllocations_view ⟨1, 1, Nat.one_pos, Nat.one_pos, rfl⟩ [] [] hprep
  exact ⟨next, hnext⟩

theorem beginCloneWrite_planned {clone : CloneRecord} (hclone : m.CloneReadable g clone)
    (hgeom : req.HasGeometry g) (hlen : 0 < req.lengthBytes)
    (h : beginCloneWrite m clone.cloneID req = .ok (exec, m')) :
    ∃ state plan plan' next,
      Planned (m.cloneView g clone) req state plan plan'
        { m.cloneView g clone with nextChunkID := next } ∧
      exec = { newWriteExecution plan' req state false with mutationOperation := none } ∧
      m' = { m with nextChunkID := next } := by
  obtain ⟨state, hstate, h⟩ := bind_eq_ok.mp h
  obtain ⟨-, h⟩ := throwIf_eq_ok.mp h
  obtain ⟨plan, hplan, h⟩ := bind_eq_ok.mp h
  obtain ⟨⟨plan', m1⟩, hprep, h⟩ := bind_eq_ok.mp h
  cases h
  obtain ⟨next, rfl, hview⟩ := prepareWritePlanAllocations_view g
    (m.snapshotPages clone.cloneBaseRootID) (m.cloneDeltaPages clone.cloneID) hprep
  refine ⟨state, plan, plan', next, ⟨?_, ?_, hview⟩, rfl, rfl⟩
  · unfold getVolumeState at hstate
    change m.volume = some state
    cases hvol : m.volume with
    | none =>
      rw [hvol] at hstate
      cases hstate
    | some volume =>
      rw [hvol] at hstate
      cases hstate
      rfl
  · rw [hgeom.pageBytes_eq, hgeom.chunkSizeBytes_eq, planCloneWrite_eq hclone hlen] at hplan
    rw [planRequest, hgeom.pageBytes_eq, hgeom.chunkSizeBytes_eq]
    exact hplan

end Begin

/-! ## Putting pages -/

/-- A clone record with the same identity, state and geometry. -/
structure SameClone (clone clone' : CloneRecord) : Prop where
  cloneID_eq : clone'.cloneID = clone.cloneID
  cloneBaseRootID_eq : clone'.cloneBaseRootID = clone.cloneBaseRootID
  state_eq : clone'.state = clone.state
  pageBytes_eq : clone'.allocationPageSizeBytes = clone.allocationPageSizeBytes
  chunkSizeBytes_eq : clone'.allocationChunkSizeBytes = clone.allocationChunkSizeBytes

/-- The metadata after pages were put into the delta of a clone. -/
structure DeltaPut (m : Repository) (cloneID : String) (pages : List AllocationPageRecord)
    (m' : Repository) : Prop where
  record : ∃ clone clone', m.getCloneRecord cloneID = .ok clone ∧ SameClone clone clone' ∧
    m'.clones = Table.put (·.cloneID) clone' m.clones
  delta : ∀ id, m'.cloneDeltaPages id = if id = cloneID then
    Table.putAll (·.pageNo) pages (m.cloneDeltaPages cloneID) else m.cloneDeltaPages id
  same : m' = { m with clones := m'.clones, cloneDeltaPages := m'.cloneDeltaPages }

variable {pages : List AllocationPageRecord}

theorem putCloneDeltaAllocationPage_fold {delta delta' : CloneDelta}
    (h : pages.foldlM putCloneDeltaAllocationPage delta = .ok delta') :
    SameClone delta.clone delta'.clone ∧
      delta'.pages = putAll (·.pageNo) pages delta.pages := by
  induction pages generalizing delta with
  | nil =>
    cases h
    exact ⟨⟨rfl, rfl, rfl, rfl, rfl⟩, rfl⟩
  | cons page pages ih =>
    obtain ⟨delta1, hput, h⟩ := bind_eq_ok.mp h
    unfold putCloneDeltaAllocationPage at hput
    obtain ⟨-, hput⟩ := throwIf_eq_ok.mp hput
    obtain ⟨-, hput⟩ := throwIf_eq_ok.mp hput
    cases hput
    obtain ⟨hclone, hpages⟩ := ih h
    exact ⟨⟨hclone.1, hclone.2, hclone.3, hclone.4, hclone.5⟩, hpages⟩

theorem Repository.CloneReadable.deltaPut {clone : CloneRecord} (h : m.CloneReadable g clone)
    (hwf : ∀ page ∈ pages, page.WF g) (hput : DeltaPut m clone.cloneID pages m') :
    ∃ clone', m'.CloneReadable g clone' ∧ SameClone clone clone' := by
  obtain ⟨clone0, clone', hrec, hsame, hclones⟩ := hput.record
  rw [h.record] at hrec
  cases hrec
  have hdelta := hput.delta clone.cloneID
  rw [if_pos rfl] at hdelta
  have hroots : m'.snapshotPages = m.snapshotPages := by rw [hput.same]
  refine ⟨clone', ⟨?_, ?_, ?_, ?_, ?_, ?_⟩, hsame⟩
  · rw [getCloneRecord, hclones, get?_put_self]
    rfl
  · rw [hsame.state_eq]
    exact h.state
  · rw [hsame.pageBytes_eq, h.pageBytes_eq]
  · rw [hsame.chunkSizeBytes_eq, h.chunkSizeBytes_eq]
  · rw [hroots, hsame.cloneBaseRootID_eq]
    exact h.base
  rw [hsame.cloneID_eq, hdelta]
  intro page hpage
  rcases mem_putAll hpage with hpage | hpage
  · exact hwf page hpage
  · exact h.delta page hpage

/-! ## Executions -/

/-- An execution whose plans were made on the view `v` of a clone. -/
structure CloneExecution (g : Geometry) (v : Repository) (req : WriteRequest)
    (exec : WriteExecution) : Prop where
  length_pos : 0 < req.lengthBytes
  pagesWF : v.PagesWF g
  copies : sourceWriteRequiresCopyOnWrite v = true
  plans : IsWritePlans g v (plannedMap g v req) req.offsetBytes req.lengthBytes exec.plans

namespace CloneExecution

variable {req : WriteRequest} {exec' : WriteExecution} {clone : CloneRecord}

theorem of_beginCloneWrite (hclone : m.CloneReadable g clone)
    (hlayout : Layout g size m.extents) (hgeom : req.HasGeometry g) (hlen : 0 < req.lengthBytes)
    (h : beginCloneWrite m clone.cloneID req = .ok (exec, m')) :
    CloneExecution g (m.cloneView g clone) req exec := by
  obtain ⟨state, plan, plan', next, hplanned, rfl, -⟩ := beginCloneWrite_planned hclone hgeom hlen h
  have hplans := hplanned.plans
  rw [planRequest, hgeom.pageBytes_eq, hgeom.chunkSizeBytes_eq] at hplans
  obtain ⟨plan'', hprep, hplan''⟩ := prepareWritePlanAllocations_ok hclone.pagesWF
    (m := m.cloneView g clone) hlayout hlen hplanned.volume
    (planWrite_ok hclone.pagesWF hlayout hlen hplans)
  rw [hplanned.prepared] at hprep
  obtain rfl : plan' = plan'' := congrArg Prod.fst (Except.ok.inj hprep)
  refine ⟨hlen, hclone.pagesWF, sourceWriteRequiresCopyOnWrite_view, ?_⟩
  have hexec : (newWriteExecution plan' req state false).plans = plan' :=
    plans_newWriteExecution plan' state false
  rw [hexec]
  exact hplan''

section

variable (h : CloneExecution g v req exec)

include h

theorem of_samePlans (hsame : SamePlans exec exec') : CloneExecution g v req exec' :=
  ⟨h.length_pos, h.pagesWF, h.copies, hsame.plans_eq ▸ h.plans⟩

section

variable (hlayout : Layout g size v.extents)

include hlayout

theorem chunkPlan {p : ExtentWritePlan} (hp : p ∈ exec.plans) :
    ChunkPlan g (plannedMap g v req) req p := by
  obtain ⟨hin, hov⟩ := mem_overlapped.mp (h.plans.extents_eq ▸ mem_map_of_mem hp)
  exact chunkPlan_plannedMap hlayout h.length_pos hin hov

theorem plannedMap_eq (hchunk : chunk ∉ touchedChunkList g req exec) :
    plannedMap g v req chunk = v.liveEntry g chunk := by
  refine plannedEntry_of_notMem fun hfresh => hchunk ?_
  obtain ⟨⟨e, he, htouch⟩, -⟩ := (mem_freshChunks hlayout h.length_pos).mp hfresh
  have hov := overlaps_of_hits htouch.1 htouch.2
  obtain ⟨p, hp, rfl⟩ : ∃ p ∈ exec.plans, p.extent = e :=
    mem_map.mp (h.plans.extents_eq ▸ Namrbd.mem_overlapped.mpr ⟨he, hov⟩)
  exact (touchedBy_touchedChunkList (fun _ hp => h.chunkPlan hlayout hp) chunk).mpr ⟨p, hp, htouch⟩

/-- The commit of a write to a clone: the pages it puts show the write over the view it was
planned on. -/
theorem finishCloneWrite_ok (hgeom : req.HasGeometry g) {cloneID : String}
    (hfinish : finishCloneWrite m cloneID exec req = .ok m') :
    touchedChunkList g req exec ≠ [] ∧ ∃ alloc,
      IsAllocationCommit g v.pageRevision req (plannedMap g v req) (touchedChunkList g req exec)
        alloc ∧ DeltaPut m cloneID alloc.pages m' := by
  obtain ⟨alloc, hprep, hcommit⟩ := bind_eq_ok.mp hfinish
  unfold commitCloneDeltaMetadata at hcommit
  split at hcommit
  · next hready =>
    have hexts := extents_ne_nil_of_canCommitMetadata hready
    have hchunks : ∀ p ∈ exec.plans, ChunkPlan g (plannedMap g v req) req p :=
      fun p hp => h.chunkPlan hlayout hp
    have hview : CommitView g v.pageRevision req (plannedMap g v req) (plannedMap g v req)
        (fun _ => plannedMap g v req) exec.plans :=
      ⟨fun p hp => (h.plans.each p hp).toPlanShows, fun _ _ _ _ => rfl, fun _ _ _ _ => rfl,
        fun c => normal_plannedEntry v.getNextChunkID_pos (normal_liveEntry h.pagesWF c)⟩
    obtain ⟨alloc', hprep', halloc, -⟩ := hview.prepareAllocationCommit_ok hgeom hchunks hexts
    rw [hprep] at hprep'
    cases hprep'
    have hentry : commitEntry (plannedMap g v req) (plannedMap g v req)
        (touchedChunkList g req exec) = plannedMap g v req := by
      funext c
      exact ite_self _
    rw [hentry] at halloc
    have htouch := touchedChunkList_ne_nil hchunks hexts
    refine ⟨htouch, alloc, halloc, ?_⟩
    -- the page of a touched chunk is among those put
    obtain ⟨c, hc⟩ := exists_mem_of_ne_nil _ htouch
    obtain ⟨page, hpage, -⟩ := (halloc.pageNo_iff (g.pageOf c)).mpr ⟨c, hc, rfl⟩
    rw [putCloneDeltaAllocationPages, if_neg (ne_nil_of_mem hpage)] at hcommit
    obtain ⟨clone, hclone, hcommit⟩ := bind_eq_ok.mp hcommit
    obtain ⟨-, hcommit⟩ := throwIf_eq_ok.mp hcommit
    obtain ⟨delta, hput, hcommit⟩ := bind_eq_ok.mp hcommit
    cases hcommit
    obtain ⟨hsame, hpages⟩ := putCloneDeltaAllocationPage_fold hput
    exact ⟨⟨clone, delta.clone, hclone, hsame, rfl⟩, fun id => by rw [hpages], rfl⟩
  · cases hcommit

end

end

end CloneExecution

/-- The delta has the page of the chunk, and this entry in it. -/
def DeltaShows (g : Geometry) (delta : List AllocationPageRecord) (chunk : Nat)
    (entry : ChunkEntry) : Prop :=
  ∃ page, Table.get? (·.pageNo) (g.pageOf chunk) delta = some page ∧ page.entryAt chunk = entry

section Put

variable {rev : Nat → Nat} {req : WriteRequest} {planned : Nat → ChunkEntry} {touched : List Nat}
  {alloc : AllocationCommit} {delta : List AllocationPageRecord}

theorem IsAllocationCommit.deltaShows_touched
    (h : IsAllocationCommit g rev req planned touched alloc) (hchunk : chunk ∈ touched) :
    DeltaShows g (putAll (·.pageNo) alloc.pages delta) chunk
      (writeEntry g req planned chunk) := by
  obtain ⟨page, hpage, hno⟩ := (h.pageNo_iff (g.pageOf chunk)).mpr ⟨chunk, hchunk, rfl⟩
  refine ⟨page, hno ▸ h.sorted.get?_putAll_of_mem hpage delta, ?_⟩
  rw [h.entryAt_eq page hpage chunk hno.symm, if_pos hchunk]

theorem IsAllocationCommit.deltaShows_untouched
    (h : IsAllocationCommit g rev req planned touched alloc) (hchunk : chunk ∉ touched)
    {entry : ChunkEntry} (hshows : DeltaShows g delta chunk entry)
    (hsame : (∃ c ∈ touched, g.pageOf c = g.pageOf chunk) → planned chunk = entry) :
    DeltaShows g (putAll (·.pageNo) alloc.pages delta) chunk entry := by
  by_cases hpage : ∃ page ∈ alloc.pages, page.pageNo = g.pageOf chunk
  · obtain ⟨page, hpage, hno⟩ := hpage
    refine ⟨page, hno ▸ h.sorted.get?_putAll_of_mem hpage delta, ?_⟩
    rw [h.entryAt_eq page hpage chunk hno.symm, if_neg hchunk]
    exact hsame ((h.pageNo_iff _).mp ⟨page, hpage, hno⟩)
  · obtain ⟨page, hget, hentry⟩ := hshows
    refine ⟨page, ?_, hentry⟩
    rw [get?_putAll_of_forall_ne fun page hmem hno => hpage ⟨page, hmem, hno⟩]
    exact hget

end Put

/-! ## Several writes -/

def CloneWritePhase.paid? : CloneWritePhase → Option WriteExecution
  | .paid exec => some exec
  | _ => none

namespace CloneCalls

variable [DecidableEq ι] (cloneID : String) (req : ι → WriteRequest)

/-- A write commits when planning it again would start from the same pages. -/
def BaseCurrent (s : CloneCalls ι) : ι × CloneWriteAction → Prop
  | (i, .commit) => ∀ exec ∈ (s.phase i).paid?,
      (planCloneWrite s.cluster.repository cloneID (req i).offsetBytes (req i).lengthBytes
        (req i).pageBytes (req i).chunkSizeBytes).map (·.map (·.baseAllocations)) =
          .ok (exec.plans.map (·.baseAllocations))
  | _ => True

instance (s : CloneCalls ι) :
    (e : ι × CloneWriteAction) → Decidable (BaseCurrent cloneID req s e)
  | (i, .commit) => inferInstanceAs (Decidable (∀ exec ∈ (s.phase i).paid?, _ = _))
  | (_, .begin) | (_, .payload _) => inferInstanceAs (Decidable True)

end CloneCalls

section Current

variable {clone : CloneRecord} {req : WriteRequest}

/-- A write that would be planned from the same pages again was planned from what the clone shows
now, on the pages it touches. -/
theorem CloneExecution.liveEntry_eq (h : CloneExecution g v req exec) (hv : Layout g size v.extents)
    (hclone : m.CloneReadable g clone) (hlayout : Layout g size m.extents)
    (hgeom : req.HasGeometry g)
    (hcur : (planCloneWrite m clone.cloneID req.offsetBytes req.lengthBytes req.pageBytes
      req.chunkSizeBytes).map (·.map (·.baseAllocations)) =
      .ok (exec.plans.map (·.baseAllocations))) {c : Nat} (hc : c ∈ touchedChunkList g req exec)
    (hpage : g.pageOf c = g.pageOf chunk) :
    v.liveEntry g chunk = (m.cloneView g clone).liveEntry g chunk := by
  obtain ⟨plan, hplan, hbases⟩ := map_eq_ok.mp hcur
  rw [hgeom.pageBytes_eq, hgeom.chunkSizeBytes_eq, planCloneWrite_eq hclone h.length_pos] at hplan
  have hnow := planWrite_ok (m := m.cloneView g clone) hclone.pagesWF hlayout h.length_pos hplan
  obtain ⟨p, hp, htouch⟩ := (touchedBy_touchedChunkList (fun _ hp => h.chunkPlan hv hp) c).mp hc
  obtain ⟨q, hq, hbase⟩ : ∃ q ∈ plan, q.baseAllocations = p.baseAllocations :=
    mem_map.mp (hbases ▸ mem_map_of_mem (f := (·.baseAllocations)) hp)
  have hthen := (h.plans.each p hp).base ((h.plans.each p hp).copyOnWrite_eq.trans h.copies)
  have hagain := (hnow.each q hq).base
    ((hnow.each q hq).copyOnWrite_eq.trans sourceWriteRequiresCopyOnWrite_view)
  -- one page is the base of both plans
  obtain ⟨r, hr, hcont⟩ := hthen.covers c htouch
  have hnumber : g.pageOf chunk = r.page.pageNo := hpage ▸ hthen.pageOf_eq r hr c hcont
  rw [← hthen.entryAt_eq r hr chunk hnumber, ← hagain.entryAt_eq r (hbase ▸ hr) chunk hnumber]

theorem plans_of_beginCloneWrite_zero {cloneID : String} (hlen : req.lengthBytes = 0)
    (h : beginCloneWrite m cloneID req = .ok (exec, m')) : exec.plans = [] := by
  unfold beginCloneWrite at h
  obtain ⟨state, -, h⟩ := bind_eq_ok.mp h
  obtain ⟨-, h⟩ := throwIf_eq_ok.mp h
  obtain ⟨plan, hplan, h⟩ := bind_eq_ok.mp h
  obtain ⟨⟨plan', m1⟩, hprep, h⟩ := bind_eq_ok.mp h
  cases h
  cases plan_empty hlen hplan
  cases hprep
  rfl

end Current

namespace CloneCalls

variable [DecidableEq ι] {cloneID : String} {req : ι → WriteRequest} {s s' : CloneCalls ι}

/-- The plans of an execution were made on some view of the clone; a write of no bytes has none. -/
def PlannedOn (g : Geometry) (extents : List ExtentMappingRecord) (req : WriteRequest)
    (exec : WriteExecution) : Prop :=
  exec.plans = [] ∨ ∃ v : Repository, v.extents = extents ∧ CloneExecution g v req exec

/-- No other call touches the chunk. -/
def OnlyHitBy (g : Geometry) (req : ι → WriteRequest) (i : ι) (chunk : Nat) : Prop :=
  ∀ j, j ≠ i → ¬Hits g.chunkSizeBytes (req j).offsetBytes (req j).lengthBytes chunk

/-- What holds while the writes run: the delta shows the chunks of the committed ones. -/
structure Sound (g : Geometry) (size : Nat) (cloneID : String) (req : ι → WriteRequest)
    (s : CloneCalls ι) : Prop where
  readable : ∃ clone, clone.cloneID = cloneID ∧ s.cluster.repository.CloneReadable g clone
  layout : Layout g size s.cluster.repository.extents
  running : ∀ i exec, s.phase i = .begun exec ∨ s.phase i = .paid exec →
    PlannedOn g s.cluster.repository.extents (req i) exec
  committed : ∀ i exec, s.phase i = .committed exec →
    ∃ v : Repository, v.extents = s.cluster.repository.extents ∧
      CloneExecution g v (req i) exec ∧
      ∀ chunk ∈ touchedChunkList g (req i) exec, OnlyHitBy g req i chunk →
        DeltaShows g (s.cluster.repository.cloneDeltaPages cloneID) chunk
          (writeEntry g (req i) (plannedMap g v (req i)) chunk)

section

variable (h : Sound g size cloneID req s)

include h

/-- A step that leaves the extents and the delta alone and commits nothing. -/
theorem Sound.of_frame (cluster : Cluster) (i : ι) (phase : CloneWritePhase)
    (hreadable : ∃ clone, clone.cloneID = cloneID ∧ cluster.repository.CloneReadable g clone)
    (hexts : cluster.repository.extents = s.cluster.repository.extents)
    (hdelta : cluster.repository.cloneDeltaPages = s.cluster.repository.cloneDeltaPages)
    (hcomm : ∀ exec, phase ≠ .committed exec)
    (hrun : ∀ exec, phase = .begun exec ∨ phase = .paid exec →
      PlannedOn g s.cluster.repository.extents (req i) exec) :
    Sound g size cloneID req { cluster, phase := update s.phase i phase } := by
  refine ⟨hreadable, hexts ▸ h.layout, fun j exec hj => ?_, fun j exec hj => ?_⟩
  · dsimp only at hj ⊢
    rw [hexts]
    by_cases hji : j = i
    · subst hji
      rw [update_self] at hj
      exact hrun exec hj
    · rw [update_of_ne hji] at hj
      exact h.running j exec hj
  · dsimp only at hj ⊢
    rw [hexts, hdelta]
    by_cases hji : j = i
    · subst hji
      rw [update_self] at hj
      exact (hcomm exec hj).elim
    · rw [update_of_ne hji] at hj
      exact h.committed j exec hj

/-- A commit over a current base keeps the chunks of the others. -/
theorem Sound.commit (hgeom : ∀ i, (req i).HasGeometry g) {i : ι} (hphase : s.phase i = .paid exec)
    (hcur : BaseCurrent cloneID req s (i, .commit))
    (hfinish : finishCloneWrite s.cluster.repository cloneID exec (req i) = .ok m') :
    Sound g size cloneID req
      { cluster := { s.cluster with repository := m' }
        phase := update s.phase i (.committed exec) } := by
  obtain ⟨clone, hid, hclone⟩ := h.readable
  subst hid
  have hcur := hcur exec (by rw [hphase]; rfl)
  rcases h.running i exec (.inr hphase) with hnil | ⟨v, hv, hexec⟩
  · -- without plans there is no quorum
    have hexts : exec.extents = [] := map_eq_nil_iff.mp hnil
    obtain ⟨alloc, -, hcommit⟩ := bind_eq_ok.mp hfinish
    simp [commitCloneDeltaMetadata, canCommitMetadata, allExtentsQuorumReached, hexts] at hcommit
  have hlayout : Layout g size v.extents := hv ▸ h.layout
  obtain ⟨-, alloc, halloc, hput⟩ := hexec.finishCloneWrite_ok hlayout (hgeom i) hfinish
  have hexts : m'.extents = s.cluster.repository.extents := by rw [hput.same]
  have hdelta := hput.delta clone.cloneID
  rw [if_pos rfl] at hdelta
  obtain ⟨clone', hclone', hsame⟩ := hclone.deltaPut halloc.wf hput
  refine ⟨⟨clone', hsame.cloneID_eq, hclone'⟩, hexts ▸ h.layout, fun j exec' hj => ?_,
    fun j exec' hj => ?_⟩
  · dsimp only at hj ⊢
    rw [hexts]
    by_cases hji : j = i
    · subst hji
      rw [update_self] at hj
      rcases hj with hj | hj <;> cases hj
    · rw [update_of_ne hji] at hj
      exact h.running j exec' hj
  · dsimp only at hj ⊢
    rw [hexts, hdelta]
    by_cases hji : j = i
    · subst hji
      rw [update_self] at hj
      cases hj
      exact ⟨v, hv, hexec, fun chunk hchunk _ => halloc.deltaShows_touched hchunk⟩
    · rw [update_of_ne hji] at hj
      obtain ⟨v', hv', hexec', hshows⟩ := h.committed j exec' hj
      refine ⟨v', hv', hexec', fun chunk hchunk honly => ?_⟩
      have huntouched : chunk ∉ touchedChunkList g (req i) exec := by
        intro htouch
        obtain ⟨p, -, hhit, -⟩ :=
          (touchedBy_touchedChunkList (fun _ hp => hexec.chunkPlan hlayout hp) chunk).mp htouch
        exact honly i (Ne.symm hji) hhit
      refine halloc.deltaShows_untouched huntouched (hshows chunk hchunk honly) ?_
      rintro ⟨c, hc, hpage⟩
      -- the write was planned from what the delta shows now
      obtain ⟨page, hget, hentry⟩ := hshows chunk hchunk honly
      rw [hexec.plannedMap_eq hlayout huntouched,
        hexec.liveEntry_eq hlayout hclone h.layout (hgeom i) hcur hc hpage,
        cloneView, liveEntry_view, hget]
      exact hentry

/-- Every action over a current base keeps the invariant. -/
theorem Sound.step (hgeom : ∀ i, (req i).HasGeometry g)
    {e : ι × CloneWriteAction} (hcur : BaseCurrent cloneID req s e)
    (hstep : CloneCalls.step cloneID req s e = some s') : Sound g size cloneID req s' := by
  obtain ⟨i, action⟩ := e
  obtain ⟨⟨cluster, phase⟩, hcall, rfl⟩ := Option.map_eq_some_iff.mp hstep
  dsimp only at hcall ⊢
  unfold cloneCallStep at hcall
  split at hcall
  · -- begin
    next hphase =>
    split at hcall
    · cases hcall
      exact h.of_frame _ i .failed h.readable rfl rfl nofun (by simp)
    next exec m' hbegin =>
    cases hcall
    obtain ⟨clone, hid, hclone⟩ := h.readable
    subst hid
    have hplan : PlannedOn g s.cluster.repository.extents (req i) exec := by
      rcases Nat.eq_zero_or_pos (req i).lengthBytes with hlen | hlen
      · exact .inl (plans_of_beginCloneWrite_zero hlen hbegin)
      · exact .inr ⟨s.cluster.repository.cloneView g clone, rfl,
          CloneExecution.of_beginCloneWrite hclone h.layout (hgeom i) hlen hbegin⟩
    obtain ⟨next, rfl⟩ := nextChunkID_of_beginCloneWrite hbegin
    refine h.of_frame _ i (.begun exec) ⟨clone, rfl, ?_⟩ rfl rfl nofun ?_
    · exact ⟨hclone.record, hclone.state, hclone.pageBytes_eq, hclone.chunkSizeBytes_eq,
        hclone.base, hclone.delta⟩
    · rintro exec' (hexec | hexec) <;> cases hexec
      exact hplan
  · -- payload
    next faults exec hphase =>
    split at hcall
    · cases hcall
      exact h.of_frame _ i .failed h.readable rfl rfl nofun (by simp)
    next exec' stores hpay =>
    cases hcall
    refine h.of_frame _ i (.paid exec') h.readable rfl rfl nofun ?_
    rintro exec'' (hexec | hexec) <;> cases hexec
    have hsame := samePlans_writePayloadFrom hpay
    rcases h.running i exec (.inl hphase) with hnil | ⟨v, hv, hexec⟩
    · exact .inl (hsame.plans_eq.trans hnil)
    · exact .inr ⟨v, hv, hexec.of_samePlans hsame⟩
  · -- commit
    next exec hphase =>
    split at hcall
    · cases hcall
      exact h.of_frame _ i .failed h.readable rfl rfl nofun (by simp)
    · next m' hfinish =>
      cases hcall
      exact h.commit hgeom hphase hcur hfinish
  · cases hcall

end

/-- Once writes to a clone have committed, each of them while its pages were those it was planned
from, the delta maps the chunks that only one of them hits to the physical chunks its writer
stored. -/
theorem committed_chunks_mapped {c : Cluster} {clone : CloneRecord}
    (hclone : c.repository.CloneReadable g clone) (hlayout : Layout g size c.repository.extents)
    (hgeom : ∀ i, (req i).HasGeometry g) {events : List (ι × CloneWriteAction)}
    (hcurrent : Trace.Guarded (step clone.cloneID req) (BaseCurrent clone.cloneID req)
      { cluster := c } events)
    (hrun : Trace.run (step clone.cloneID req) { cluster := c } events = some s') {i : ι}
    {exec : WriteExecution} (hcommitted : s'.phase i = .committed exec)
    {e : ExtentMappingRecord} (he : e ∈ s'.cluster.repository.extents) {chunk : Nat}
    (hin : e.HasChunk g.chunkSizeBytes chunk)
    (hhit : Hits g.chunkSizeBytes (req i).offsetBytes (req i).lengthBytes chunk)
    (hskip : (req i).skips g chunk = false) (honly : OnlyHitBy g req i chunk) :
    ∃ p ∈ exec.plans, p.extent = e ∧ ∃ writes w,
      resolvedWriteChunkMappings p (req i) = some writes ∧ w ∈ writes ∧ w.logicalChunk = chunk ∧
      nativeEntry g (s'.cluster.repository.cloneDeltaPages clone.cloneID) chunk =
        ⟨w.physicalChunkID, none⟩ := by
  have hstart : Sound g size clone.cloneID req ({ cluster := c } : CloneCalls ι) :=
    ⟨⟨clone, rfl, hclone⟩, hlayout, by simp, by simp⟩
  have hend : Sound g size clone.cloneID req s' :=
    Trace.run_induction (Sound g size clone.cloneID req)
      (fun _ _ _ h hcurrent hstep => h.step hgeom hcurrent hstep) hstart hcurrent hrun
  obtain ⟨v, hv, hexec, hshows⟩ := hend.committed i exec hcommitted
  have hlayout' : Layout g size v.extents := hv ▸ hend.layout
  obtain ⟨p, hp, rfl⟩ : ∃ p ∈ exec.plans, p.extent = e :=
    mem_map.mp (hexec.plans.extents_eq ▸ mem_overlapped.mpr ⟨hv ▸ he, overlaps_of_hits hhit hin⟩)
  have hplan := hexec.chunkPlan hlayout' hp
  have hshow := hexec.plans.each p hp
  have htouch : chunk ∈ touchedChunkList g (req i) exec :=
    (touchedBy_touchedChunkList (fun _ hp => hexec.chunkPlan hlayout' hp) chunk).mpr
      ⟨p, hp, hhit, hin⟩
  have hwrit : chunk ∈ writtenChunks g (req i) p.extent :=
    hplan.mem_writtenChunks.mpr ⟨⟨hhit, hin⟩, hskip⟩
  refine ⟨p, hp, rfl, _, _,
    hplan.resolvedWriteChunkMappings_planned hshow.chunkSizeBytes_eq hshow.pages,
    mem_map_of_mem hwrit, rfl, ?_⟩
  obtain ⟨page, hget, hentry⟩ := hshows chunk htouch honly
  rw [nativeEntry_of_get? hget, hentry, writeEntry, if_neg (by simp [hskip])]

end CloneCalls

/-! ## Two writes to one page -/

namespace ClonedVolume

def clone : CloneRecord :=
  { cloneID := "c", sourceSnapshotID := "s", cloneBaseRootID := "s", state := .available
    allocationChunkSizeBytes := 4, allocationPageSizeBytes := 8, sizeBytes := 8 }

def cluster : Cluster :=
  let c := LegacyVolume.cluster 0
  { c with repository := { c.repository with
      snapshots := [{ viewSnapshot with
        snapshotID := "s", allocationChunkSizeBytes := 4, allocationPageSizeBytes := 8 }]
      clones := [clone] } }

def requests : Bool → WriteRequest
  | false => LegacyVolume.request "k1" 0 65
  | true => LegacyVolume.request "k2" 4 66

def apart : List (Bool × CloneWriteAction) :=
  [(false, .begin), (false, .payload .reliable), (false, .commit),
    (true, .begin), (true, .payload .reliable), (true, .commit)]

/-- Both writes are planned before one of them commits. -/
def together : List (Bool × CloneWriteAction) :=
  [(false, .begin), (true, .begin), (false, .payload .reliable), (true, .payload .reliable),
    (false, .commit), (true, .commit)]

theorem cloneReadable : cluster.repository.CloneReadable geometry clone where
  record := rfl
  state := .inl rfl
  pageBytes_eq := rfl
  chunkSizeBytes_eq := rfl
  base := fun _ h => (not_mem_nil h).elim
  delta := fun _ h => (not_mem_nil h).elim

/-- Both writes succeed, and the chunk of the first is zero in the clone. -/
theorem first_clone_write_lost :
    ∃ s exec exec', Trace.run (CloneCalls.step "c" requests) { cluster := cluster } together =
        some s ∧
      s.phase false = .committed exec ∧ s.phase true = .committed exec' ∧
      nativeEntry geometry (s.cluster.repository.cloneDeltaPages "c") 0 =
        .zero ∧
      readClone .reliable s.cluster "c" ⟨0, 8, 8, 4⟩ =
        .ok (List.replicate 4 0 ++ List.replicate 4 66) :=
  ⟨_, _, _, rfl, rfl, rfl, by decide, by decide⟩

/-- The second write is planned after the first has committed, and both chunks stay. -/
theorem both_clone_writes_mapped :
    ∃ s exec exec', Trace.run (CloneCalls.step "c" requests) { cluster := cluster } apart =
        some s ∧
      s.phase false = .committed exec ∧ s.phase true = .committed exec' ∧
      ∃ p ∈ exec.plans, p.extent = ⟨1, 0, 8, 0, "p", 1⟩ ∧ ∃ writes w,
        resolvedWriteChunkMappings p (requests false) = some writes ∧ w ∈ writes ∧
        w.logicalChunk = 0 ∧ nativeEntry geometry
          (s.cluster.repository.cloneDeltaPages "c") 0 = ⟨w.physicalChunkID, none⟩ := by
  have hgeom : ∀ i, (requests i).HasGeometry geometry := by
    rintro (_ | _) <;> exact ⟨rfl, rfl⟩
  have hcur : Trace.Guarded (CloneCalls.step clone.cloneID requests)
      (CloneCalls.BaseCurrent clone.cloneID requests) { cluster := cluster } apart := by
    decide
  refine ⟨_, _, _, rfl, rfl, rfl, CloneCalls.committed_chunks_mapped cloneReadable
    (newVolume 0).layout hgeom hcur rfl rfl (mem_singleton.mpr rfl)
    ⟨by decide, by decide⟩ (by decide) rfl ?_⟩
  rintro (_ | _) hne
  · exact (hne rfl).elim
  · decide

end ClonedVolume

end Namrbd
