import Namrbd.Lib.Trace
import Namrbd.Maintenance.Snapshots
import Namrbd.Verify.CommitTransactions

/-!
# Snapshots and clones of a volume at rest

The creation of a snapshot with nothing in between: the new record is the only
one that changes, and once the pages are captured they show the map of the
volume. A clone is made in one transaction and starts without pages of its own.
-/

namespace Namrbd

open List Repository Result Table

variable {pages : List AllocationPageRecord} {g : Geometry} {m m1 : Repository}

/-- The pages show the live map; what none of them holds is zero. -/
structure ShowsLive (g : Geometry) (m : Repository) (pages : List AllocationPageRecord) : Prop where
  live : ∀ page ∈ pages, m.IsLivePage g page.pageNo page
  rest : ∀ chunk, (∀ page ∈ pages, page.pageNo ≠ g.pageOf chunk) → m.liveEntry g chunk = .zero

/-- A snapshot record with its pages was added, and nothing else. -/
structure SnapshotMade (g : Geometry) (m : Repository) (snapshotID : String)
    (state : SnapshotState) (pages : List AllocationPageRecord) (m' : Repository) : Prop where
  unused : Table.get? (·.snapshotID) snapshotID m.snapshots = none
  record : ∃ record, Table.get? (·.snapshotID) snapshotID m'.snapshots = some record ∧
    record.state = state ∧ record.allocationPageSizeBytes = g.pageBytes ∧
    record.allocationChunkSizeBytes = g.chunkSizeBytes
  others : ∀ id, id ≠ snapshotID → Table.get? (·.snapshotID) id m'.snapshots =
    Table.get? (·.snapshotID) id m.snapshots
  pages_eq : ∀ id, m'.snapshotPages id = if id = snapshotID then pages else m.snapshotPages id
  same : m' = { m with snapshots := m'.snapshots, snapshotPages := m'.snapshotPages }

def VolumeSpecRecord.HasGeometry (spec : VolumeSpecRecord) (g : Geometry) : Prop :=
  spec.extentPageBytes = g.pageBytes ∧ spec.chunkSizeBytes = g.chunkSizeBytes

/-- What a creation has made by each phase. -/
def SnapshotPhase.Made (g : Geometry) (m : Repository) : SnapshotPhase → Repository → Prop
  | .idle, m' | .cut _, m' => m' = m
  | .planned _ spec _, m' => m' = m ∧ spec.HasGeometry g
  | .created snapshotID spec, m' =>
    SnapshotMade g m snapshotID .creating [] m' ∧ spec.HasGeometry g
  | .listing snapshotID pageNos pages, m' =>
    SnapshotMade g m snapshotID .creating [] m' ∧ m.pages ≠ [] ∧
      (∀ page ∈ pages, m.IsLivePage g page.pageNo page) ∧
      ∀ page ∈ m.pages, page.pageNo ∈ pageNos ∨ ∃ page' ∈ pages, page'.pageNo = page.pageNo
  | .unmapped snapshotID spec, m' =>
    SnapshotMade g m snapshotID .creating [] m' ∧ spec.HasGeometry g ∧ m.pages = []
  | .listed snapshotID pages, m' =>
    SnapshotMade g m snapshotID .creating [] m' ∧ ShowsLive g m pages
  | .captured snapshotID, m' => ∃ pages, ShowsLive g m pages ∧
    SnapshotMade g m snapshotID .creating (Table.putAll (·.pageNo) pages []) m'
  | .done, m' => ∃ snapshotID pages, ShowsLive g m pages ∧
    SnapshotMade g m snapshotID .available (Table.putAll (·.pageNo) pages []) m'
  | .failing snapshotID _, m' => SnapshotMade g m snapshotID .creating [] m'
  | .failed, m' => m' = m ∨ ∃ snapshotID state pages, state ≠ .available ∧
    SnapshotMade g m snapshotID state pages m'

section Pages

theorem ShowsLive.nativeEntry_putAll (h : ShowsLive g m pages) (chunk : Nat) :
    Repository.nativeEntry g (putAll (·.pageNo) pages []) chunk = m.liveEntry g chunk := by
  cases hget : get? (·.pageNo) (g.pageOf chunk) (putAll (·.pageNo) pages []) with
  | some page =>
    have hmem : page ∈ pages := by
      rcases mem_putAll (mem_of_get? hget) with hmem | hmem
      · exact hmem
      · cases hmem
    rw [nativeEntry_of_get? hget]
    exact (h.live page hmem).entryAt_eq chunk (key_of_get? hget).symm
  | none =>
    rw [nativeEntry_of_get?_none hget, h.rest]
    intro page hpage hno
    rw [get?_putAll, Option.or_eq_none_iff] at hget
    have hnot := find?_eq_none.mp hget.1 page (mem_reverse.mpr hpage)
    exact hnot (by simpa using hno)

theorem ShowsLive.wf_putAll (h : ShowsLive g m pages) :
    ∀ page ∈ putAll (·.pageNo) pages [], page.WF g := by
  intro page hpage
  rcases mem_putAll hpage with hpage | hpage
  · exact (h.live page hpage).wf
  · cases hpage

end Pages

section Snapshots

variable {m2 : Repository} {snapshotID : String} {state : SnapshotState}

theorem SnapshotMade.markSnapshotState (h : SnapshotMade g m snapshotID state pages m1)
    {state' : SnapshotState} {message : String}
    (hmark : m1.markSnapshotState snapshotID state' message = .ok m2) :
    SnapshotMade g m snapshotID state' pages m2 := by
  obtain ⟨record, hget, -, hpage, hchunk⟩ := h.record
  obtain ⟨record', hrec, hmark⟩ := bind_eq_ok.mp hmark
  cases hmark
  obtain rfl : record = record' := Option.some.inj (hget.symm.trans (orNotFound_eq_ok.mp hrec))
  have hkey : record.snapshotID = snapshotID := key_of_get? hget
  refine ⟨h.unused, ⟨{ record with state := state', errorMessage := message }, ?_, rfl, hpage,
    hchunk⟩, fun id hid => ?_, h.pages_eq, ?_⟩
  · subst hkey
    rw [get?_put, if_pos rfl]
  · rw [get?_put_of_ne (by exact hkey ▸ Ne.symm hid), h.others id hid]
  · rw [h.same]

theorem SnapshotMade.capture (h : SnapshotMade g m snapshotID state [] m1) :
    SnapshotMade g m snapshotID state (putAll (·.pageNo) pages [])
      (m1.captureSnapshotAllocationPages snapshotID pages) := by
  refine ⟨h.unused, h.record, h.others, fun id => ?_, ?_⟩
  · unfold captureSnapshotAllocationPages
    dsimp only
    rw [h.pages_eq]
    split
    · rfl
    · rfl
  · unfold captureSnapshotAllocationPages
    rw [h.same]

variable {idOf : Nat → String} {phase : SnapshotPhase}

theorem SnapshotPhase.Made.of_ne_done (h : phase.Made g m m1) (hphase : phase ≠ .done) :
    m1 = m ∨ ∃ snapshotID state pages, state ≠ .available ∧
      SnapshotMade g m snapshotID state pages m1 := by
  have hcreating : SnapshotState.creating ≠ .available := by decide
  cases phase with
  | idle | cut volume => exact .inl h
  | planned volume spec attempt => exact .inl h.1
  | created snapshotID spec | listing snapshotID pageNos pages | unmapped snapshotID spec
  | listed snapshotID pages => exact .inr ⟨_, _, _, hcreating, h.1⟩
  | captured snapshotID =>
    obtain ⟨pages, -, hmade⟩ := h
    exact .inr ⟨_, _, _, hcreating, hmade⟩
  | done => exact (hphase rfl).elim
  | failing snapshotID message => exact .inr ⟨_, _, _, hcreating, h⟩
  | failed => exact h

/-- An access of a snapshot's creation makes what it should of the captured pages. -/
theorem made_snapshotStep (hwf : m.PagesWF g)
    (hspec : ∀ spec, m.spec = some spec → spec.HasGeometry g)
    (hunused : ∀ id, get? (·.snapshotID) id m.snapshots = none → m.snapshotPages id = [])
    {a : SnapshotAction} {phase' : SnapshotPhase} (hphase : phase.Made g m m1)
    (h : snapshotStep idOf m1 a phase = some (m2, phase')) : phase'.Made g m m2 := by
  cases snapshotMove_of_step h with
  | stop hne => exact hphase.of_ne_done hne
  | fail message hlisted =>
    cases phase <;> cases hlisted
    all_goals exact hphase.1
  | readVolume volume | retry => exact hphase
  | readSpec hget =>
    have hphase : m1 = m := hphase
    subst hphase
    exact ⟨rfl, hspec _ (orNotFound_eq_ok.mp hget)⟩
  | createRecord hcreate =>
    obtain ⟨hm, hgeom⟩ := hphase
    subst hm
    unfold createSnapshotRecord at hcreate
    split at hcreate
    · cases hcreate
    next hnone =>
    cases hcreate
    refine ⟨⟨hnone, ⟨_, get?_put_self (newSnapshotRecord _ _ _) _, rfl, hgeom⟩,
      fun id hid => ?_, fun id => ?_, rfl⟩, hgeom⟩
    · rw [get?_put_of_ne (by exact Ne.symm hid)]
    split
    · next hid =>
      subst hid
      exact hunused _ hnone
    · rfl
  | unmapped hnil =>
    obtain ⟨hmade, hgeom⟩ := hphase
    rw [hmade.same] at hnil
    exact ⟨hmade, hgeom, hnil⟩
  | listPages hne =>
    obtain ⟨hmade, -⟩ := hphase
    have hpages : m1.pages = m.pages := by rw [hmade.same]
    refine ⟨hmade, hpages ▸ hne, by simp, fun page hpage => .inl ?_⟩
    rw [hpages]
    exact mem_map_of_mem hpage
  | readPage hget =>
    obtain ⟨hmade, hne, hlive, hall⟩ := hphase
    rw [hmade.same] at hget
    have hkey := key_of_get? hget
    refine ⟨hmade, hne, ?_, fun page' hpage' => ?_⟩
    · simp only [forall_mem_append, forall_mem_singleton]
      exact ⟨hlive, hkey ▸ isLivePage_of_get? hwf hget⟩
    rcases hall page' hpage' with hmem | ⟨page'', hmem, heq⟩
    · rcases mem_cons.mp hmem with hhead | hmem
      · exact .inr ⟨_, by simp, hkey.trans hhead.symm⟩
      · exact .inl hmem
    · exact .inr ⟨page'', by simp [hmem], heq⟩
  | listed =>
    obtain ⟨hmade, hne, hlive, hall⟩ := hphase
    refine ⟨hmade, hlive, fun chunk hchunk => ?_⟩
    rw [liveEntry, if_neg hne]
    apply nativeEntry_of_get?_none
    rw [get?_eq_none]
    intro page hpage hno
    rcases hall page hpage with hmem | ⟨page', hpage', heq⟩
    · cases hmem
    · exact hchunk page' hpage' (heq.trans hno)
  | readMappings =>
    obtain ⟨hmade, hgeom, hnil⟩ := hphase
    refine ⟨hmade, ?_⟩
    rw [hgeom.1, hgeom.2, hmade.same]
    refine ⟨fun page hpage => ?_, fun chunk hchunk => ?_⟩
    · obtain ⟨pageNo, -, rfl⟩ := mem_map.mp hpage
      exact isLivePage_synthesize hnil pageNo
    have hun : g.pageOf chunk ∉ mappedPageNos g.pageBytes g.chunkSizeBytes m.extents :=
      fun hmem => hchunk _ (mem_map_of_mem hmem) rfl
    rw [← (isLivePage_synthesize hnil _).entryAt_eq chunk rfl, synthesize_unmapped hun]
    exact entryAt_zeroAllocationPage _ _ _ _
  | capture =>
    obtain ⟨hmade, hshows⟩ := hphase
    exact ⟨_, hshows, hmade.capture⟩
  | markAvailable hmark =>
    obtain ⟨pages, hshows, hmade⟩ := hphase
    exact ⟨_, pages, hshows, hmade.markSnapshotState hmark⟩
  | markFailed hmark =>
    exact .inr ⟨_, _, _, by decide, .markSnapshotState hphase hmark⟩

theorem made_of_run (hwf : m.PagesWF g) (hspec : ∀ spec, m.spec = some spec → spec.HasGeometry g)
    (hunused : ∀ id, get? (·.snapshotID) id m.snapshots = none → m.snapshotPages id = [])
    {actions : List SnapshotAction}
    (h : Trace.run (snapshotAccess idOf) (m, .idle) actions = some (m1, phase)) :
    phase.Made g m m1 :=
  Trace.run_invariant (fun s => s.2.Made g m s.1)
    (fun _ _ _ hphase hstep => made_snapshotStep hwf hspec hunused hphase hstep)
    (by exact rfl : SnapshotPhase.idle.Made g m m) h

end Snapshots

/-! ## Clones -/

/-- A clone record was added and counted by its snapshot. -/
structure CloneMade (m : Repository) (req : CreateCloneRequest) (source : SnapshotRecord)
    (clone : CloneRecord) (m' : Repository) : Prop where
  source_eq : m.getSnapshotRecord req.sourceSnapshotID = .ok source
  available : source.state = .available
  unused : Table.get? (·.cloneID) req.cloneID m.clones = none
  cloneID_eq : clone.cloneID = req.cloneID
  base_eq : clone.cloneBaseRootID = req.sourceSnapshotID
  state_eq : clone.state = .available
  pageBytes_eq : clone.allocationPageSizeBytes = source.allocationPageSizeBytes
  chunkSizeBytes_eq : clone.allocationChunkSizeBytes = source.allocationChunkSizeBytes
  clones_eq : m'.clones = Table.put (·.cloneID) clone m.clones
  snapshots_eq : m'.snapshots = Table.put (·.snapshotID)
    { source with cloneReferenceCount := source.cloneReferenceCount + 1 } m.snapshots
  same : m' = { m with clones := m'.clones, snapshots := m'.snapshots }

section Clones

variable {m' : Repository} {req : CreateCloneRequest}

def ClonePhase.Made (m : Repository) (req : CreateCloneRequest) : ClonePhase → Repository → Prop
  | .done, m' => ∃ source clone, CloneMade m req source clone m'
  | _, m' => m' = m

theorem made_cloneStep {a : CloneAction} {phase phase' : ClonePhase} (hphase : phase.Made m req m1)
    (h : cloneStep req m1 a phase = some (m', phase')) :
    phase'.Made m req m' := by
  unfold cloneStep at h
  split at h
  · split at h
    · cases h; exact hphase
    · cases h; exact hphase
  · have hm : m1 = m := hphase
    subst hm
    split at h
    · cases h; rfl
    next hcreate =>
    cases h
    obtain ⟨source, hsrc, hcreate⟩ := bind_eq_ok.mp hcreate
    obtain ⟨havail, hcreate⟩ := throwIf_eq_ok.mp hcreate
    obtain ⟨-, hcreate⟩ := throwIf_eq_ok.mp hcreate
    dsimp only at hcreate
    split at hcreate
    · cases hcreate
    next hunused =>
    cases hcreate
    have hkey : source.snapshotID = req.sourceSnapshotID := key_of_get? (orNotFound_eq_ok.mp hsrc)
    exact ⟨source, _, hsrc, not_not.mp havail, hunused, rfl, hkey, rfl, rfl, rfl, rfl,
      rfl, rfl⟩
  · cases h; exact hphase
  · cases h

theorem cloneMade_of_run {actions : List CloneAction}
    (h : Trace.run (cloneAccess req) (m, .idle) actions = some (m', .done)) :
    ∃ source clone, CloneMade m req source clone m' :=
  Trace.run_invariant (fun s => s.2.Made m req s.1)
    (fun _ _ _ hphase hstep => made_cloneStep hphase hstep)
    (by exact rfl : ClonePhase.idle.Made m req m) h

end Clones

end Namrbd
