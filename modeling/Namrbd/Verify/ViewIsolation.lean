import Namrbd.Verify.Creations
import Namrbd.Verify.ViewWrites

/-!
# Isolation of views

Writes to a volume and to its clones, creations of snapshots and of clones, one after
the other. Every view has an array of its own, and every read of a view returns a
window of its array, as long as the ids that the extent mappings own stay below the
chunk id sequence. Where the sequence hands such ids out again, a write to the volume
changes a snapshot.
-/

namespace Namrbd

open Function List Repository Result Table LegacyVolume

variable {c c' : Cluster} {snapshotID cloneID id : String} {w m m' m₁ : Repository} {g : Geometry}
  {v : View} {data : List Byte} {f : Nat → Byte} {state : SnapshotState}
  {pages : List AllocationPageRecord} {resp : WriteResponse} {arrays : Arrays} {size : Nat}
  {cfg : ExecutorConfig}

/-! ## Views -/

inductive View where
  | source
  | snapshot (snapshotID : String)
  | clone (cloneID : String)
  deriving DecidableEq

def readView (faults : StoreFaults) (c : Cluster) : View → ReadRequest → Except Err (List Byte)
  | .source, req => read faults c req
  | .snapshot snapshotID, req => readSnapshot faults c snapshotID req
  | .clone cloneID, req => readClone faults c cloneID req

def Repository.Available (m : Repository) (snapshotID : String) : Prop :=
  ∃ record, m.getSnapshotRecord snapshotID = .ok record ∧ record.state = .available

/-- A view can be read, as the repository `w`. -/
def View.Reads (g : Geometry) (m : Repository) : View → Repository → Prop
  | .source, w => w = m
  | .snapshot snapshotID, w =>
    m.Available snapshotID ∧ (∀ page ∈ m.snapshotPages snapshotID, page.WF g) ∧
      w = m.snapshotView g snapshotID
  | .clone cloneID, w => ∃ clone, clone.cloneID = cloneID ∧ m.CloneReadable g clone ∧
    m.Available clone.cloneBaseRootID ∧ w = m.cloneView g clone

variable {faults : StoreFaults}

namespace View.Reads

theorem sameVolume (h : v.Reads g m w) : SameVolume m w := by
  cases v with
  | source =>
    obtain rfl : w = m := h
    exact .refl _
  | snapshot snapshotID =>
    obtain ⟨-, -, rfl⟩ := h
    exact .view ..
  | clone cloneID =>
    obtain ⟨clone, -, -, -, rfl⟩ := h
    exact .view ..

theorem copies_of_available (h : m.Available snapshotID) :
    sourceWriteRequiresCopyOnWrite m = true := by
  obtain ⟨record, hrec, hstate⟩ := h
  unfold sourceWriteRequiresCopyOnWrite listSnapshotRecords
  rw [any_eq_true]
  exact ⟨record, mem_filter.mpr
    ⟨mem_of_get? (orNotFound_eq_ok.mp hrec), by simp [hstate]⟩, by simp [hstate]⟩

theorem copies (h : v.Reads g m w) (hv : v ≠ .source) :
    sourceWriteRequiresCopyOnWrite m = true := by
  cases v with
  | source => exact (hv rfl).elim
  | snapshot snapshotID => exact copies_of_available h.1
  | clone cloneID =>
    obtain ⟨clone, -, -, hbase, -⟩ := h
    exact copies_of_available hbase

end View.Reads

/-! ## Extents in any order -/

section Joined

variable {req : ReadRequest} (hv : v.Reads g c.repository w)
  (h : ShowsRange g { c with repository := w } f req.offsetBytes req.lengthBytes)
  (hpage : req.pageBytes = g.pageBytes) (hchunk : req.chunkSizeBytes = g.chunkSizeBytes)
  (hread : readView faults c v req = .ok data)

include hv h hpage hchunk hread

end Joined

namespace LegacyVolume

end LegacyVolume

/-! ## What steps keep -/

def KeepsSnapshots (m m' : Repository) : Prop :=
  ∀ id, m.Available id → m'.Available id ∧ m'.snapshotPages id = m.snapshotPages id

def KeepsClone (m m' : Repository) (cloneID : String) : Prop :=
  ∀ clone, m.getCloneRecord cloneID = .ok clone →
    m'.getCloneRecord cloneID = .ok clone ∧ m'.cloneDeltaPages cloneID = m.cloneDeltaPages cloneID

section Keeps

theorem View.Reads.keep (h : v.Reads g m w) (hv : v ≠ .source) (hsnaps : KeepsSnapshots m m')
    (hclones : ∀ id, v = .clone id → KeepsClone m m' id) :
    ∃ w', v.Reads g m' w' ∧ w'.PagesWF g ∧ ∀ k, w'.liveEntry g k = w.liveEntry g k := by
  cases v with
  | source => exact (hv rfl).elim
  | snapshot snapshotID =>
    obtain ⟨havail, hwf, rfl⟩ := h
    obtain ⟨havail', hpages⟩ := hsnaps snapshotID havail
    rw [← hpages] at hwf
    refine ⟨_, ⟨havail', hwf, rfl⟩, pagesWF_view hwf (by simp), fun k => ?_⟩
    simp only [snapshotView, liveEntry_view_nil, hpages]
  | clone cloneID =>
    obtain ⟨clone, rfl, hclone, hbase, rfl⟩ := h
    obtain ⟨hbase', hpages⟩ := hsnaps clone.cloneBaseRootID hbase
    obtain ⟨hrec, hdelta⟩ := hclones clone.cloneID rfl clone hclone.record
    have hclone' : m'.CloneReadable g clone :=
      ⟨hrec, hclone.state, hclone.pageBytes_eq, hclone.chunkSizeBytes_eq,
        by rw [hpages]; exact hclone.base, by rw [hdelta]; exact hclone.delta⟩
    refine ⟨_, ⟨clone, rfl, hclone', hbase', rfl⟩, hclone'.pagesWF, fun k => ?_⟩
    simp only [cloneView, liveEntry_view, hpages, hdelta]

theorem WriterStep.keepsSnapshots (h : WriterStep m m') : KeepsSnapshots m m' := by
  intro id havail
  unfold Available getSnapshotRecord at havail ⊢
  rw [h.snapshots, h.snapshotPages]
  exact ⟨havail, rfl⟩

theorem WriterStep.keepsClone (h : WriterStep m m') (cloneID : String) :
    KeepsClone m m' cloneID := by
  intro clone hclone
  unfold getCloneRecord at hclone ⊢
  rw [h.clones, h.cloneDeltaPages]
  exact ⟨hclone, rfl⟩

theorem CloneStep.keepsSnapshots (h : CloneStep cloneID m m') : KeepsSnapshots m m' := by
  intro id havail
  rw [h.same]
  exact ⟨havail, rfl⟩

theorem CloneStep.keepsClone (h : CloneStep cloneID m m') (hid : id ≠ cloneID) :
    KeepsClone m m' id := by
  intro clone hclone
  rw [(h.others id hid).1]
  exact ⟨hclone, (h.others id hid).2⟩

variable {req : CreateCloneRequest} {source : SnapshotRecord} {clone : CloneRecord}

section

variable (h : SnapshotMade g m snapshotID state pages m')

include h

theorem SnapshotMade.sameVolume : SameVolume m m' :=
  ⟨by rw [h.same], by rw [h.same], by rw [h.same], by rw [h.same]⟩

theorem SnapshotMade.keepsSnapshots : KeepsSnapshots m m' := by
  rintro id ⟨record, hrec, hstate⟩
  have hne : id ≠ snapshotID := by
    rintro rfl
    exact nomatch h.unused.symm.trans (orNotFound_eq_ok.mp hrec)
  refine ⟨⟨record, ?_, hstate⟩, by rw [h.pages_eq, if_neg hne]⟩
  rw [getSnapshotRecord, h.others id hne]
  exact hrec

theorem SnapshotMade.keepsClone (cloneID : String) : KeepsClone m m' cloneID := by
  intro clone hclone
  rw [h.same]
  exact ⟨hclone, rfl⟩

end

section

variable (h : CloneMade m req source clone m')

include h

theorem CloneMade.sameVolume : SameVolume m m' :=
  ⟨by rw [h.same], by rw [h.same], by rw [h.same], by rw [h.same]⟩

theorem CloneMade.keepsSnapshots : KeepsSnapshots m m' := by
  rintro id ⟨record, hrec, hstate⟩
  have hpages : m'.snapshotPages = m.snapshotPages := by rw [h.same]
  refine ⟨?_, by rw [hpages]⟩
  unfold Available getSnapshotRecord
  rw [h.snapshots_eq, get?_put]
  split
  · exact ⟨_, rfl, h.available⟩
  · exact ⟨record, hrec, hstate⟩

theorem CloneMade.keepsClone (cloneID : String) : KeepsClone m m' cloneID := by
  intro clone' hclone'
  have hdelta : m'.cloneDeltaPages = m.cloneDeltaPages := by rw [h.same]
  have hne : clone.cloneID ≠ cloneID := by
    rintro rfl
    rw [h.cloneID_eq] at hclone'
    exact nomatch h.unused.symm.trans (orNotFound_eq_ok.mp hclone')
  rw [getCloneRecord, h.clones_eq, get?_put_of_ne hne, hdelta]
  exact ⟨hclone', rfl⟩

end

end Keeps

theorem getCloneRecord_of_writeClone {req : WriteRequest} (hgeom : req.HasGeometry g)
    (h : writeClone faults c cloneID req = (.ok resp, c')) :
    resp.replay = false ∧ ∃ clone, c.repository.getCloneRecord cloneID = .ok clone := by
  have hlen := length_pos_of_writeClone h
  unfold writeClone at h
  split at h
  · cases h
  next exec m hbegin =>
  constructor
  · split at h
    · cases h
    · split at h
      · cases h
      · cases h
        rfl
  · obtain ⟨state, -, hbegin⟩ := bind_eq_ok.mp hbegin
    obtain ⟨-, hbegin⟩ := throwIf_eq_ok.mp hbegin
    obtain ⟨plan, hplan, -⟩ := bind_eq_ok.mp hbegin
    obtain ⟨resolved, -, hplan⟩ := bind_eq_ok.mp hplan
    obtain ⟨pages, hpages, -⟩ := bind_eq_ok.mp hplan
    unfold resolveClonePagesForPlan at hpages
    rw [hgeom.pageBytes_eq, hgeom.chunkSizeBytes_eq,
      if_pos ⟨g.pageBytes_pos, g.chunkSizeBytes_pos⟩, resolveCloneAllocationPages,
      if_neg (by omega), g.invalidGeometry_eq, if_neg Bool.false_ne_true] at hpages
    obtain ⟨clone, hclone, -⟩ := bind_eq_ok.mp hpages
    exact ⟨clone, hclone⟩

/-! ## Arrays of views -/

abbrev Arrays := View → Option (Nat → Byte)

/-- Every view stands for its array. Snapshots and clones that do not exist have no pages. -/
structure ViewsShow (g : Geometry) (size : Nat) (c : Cluster) (arrays : Arrays) : Prop where
  source : ∃ f, arrays .source = some f ∧ Blank g c.repository f
  views : ∀ v f, arrays v = some f → ∃ w, v.Reads g c.repository w ∧
    Represents g size w c.stores f
  spec : ∀ spec, c.repository.spec = some spec → spec.HasGeometry g
  available : ∀ id record, c.repository.getSnapshotRecord id = .ok record →
    record.state = .available → record.allocationPageSizeBytes = g.pageBytes ∧
      record.allocationChunkSizeBytes = g.chunkSizeBytes ∧ ∃ f, arrays (.snapshot id) = some f
  clones : ∀ id clone, c.repository.getCloneRecord id = .ok clone →
    ∃ f, arrays (.clone id) = some f
  unusedSnapshot : ∀ id, Table.get? (·.snapshotID) id c.repository.snapshots = none →
    c.repository.snapshotPages id = []
  unusedClone : ∀ id, Table.get? (·.cloneID) id c.repository.clones = none →
    c.repository.cloneDeltaPages id = []

namespace ViewsShow

variable {req : WriteRequest}

theorem represents (h : ViewsShow g size c arrays) :
    ∃ f, arrays .source = some f ∧ Blank g c.repository f ∧
      Represents g size c.repository c.stores f := by
  obtain ⟨f, hf, hblank⟩ := h.source
  obtain ⟨w, hw, hrep⟩ := h.views .source f hf
  obtain rfl : w = c.repository := hw
  exact ⟨f, hf, hblank, hrep⟩

/-- A view that a step leaves alone, when something else stands for an array after it. -/
theorem other (h : ViewsShow g size c arrays) (hundist : Undisturbed c c')
    (hsnaps : KeepsSnapshots c.repository c'.repository) (hv : v ≠ .source)
    (hclones : ∀ id, v = .clone id → KeepsClone c.repository c'.repository id)
    (hf : arrays v = some f) {w0 : Repository} {f0 : Nat → Byte}
    (hvol : SameVolume c'.repository w0) (hwriter : Represents g size w0 c'.stores f0) :
    ∃ w, v.Reads g c'.repository w ∧ Represents g size w c'.stores f := by
  obtain ⟨w, hreads, hrep⟩ := h.views v f hf
  obtain ⟨w', hreads', hwf, hlive⟩ := hreads.keep hv hsnaps hclones
  exact ⟨w', hreads', hundist.represents hrep hreads.sameVolume hreads'.sameVolume hwf hlive
    hvol hwriter⟩

/-! ### Writes -/

variable {idOf : Nat → String} {actions : List SnapshotAction}

theorem write (hasync : cfg.asyncWriteEffects = false) (h : ViewsShow g size c arrays) {now : Nat}
    (hstep : WriteStep g cfg c req) (hwrite : Namrbd.write cfg now .reliable c req = (.ok resp, c')) :
    ViewsShow g size c' (update arrays .source ((arrays .source).map (resp.apply req))) := by
  obtain ⟨f, hf, hblank, hrep⟩ := h.represents
  obtain ⟨hrep', hblank'⟩ := write_represents hasync hrep hblank hstep hwrite
  have hwriter := writerStep_write cfg now .reliable c req
  rw [hwrite] at hwriter
  rw [hf]
  constructor
  · exact ⟨_, update_self _ _ _, hblank'⟩
  · intro v f' hv
    by_cases hsrc : v = .source
    · subst hsrc
      cases hv
      exact ⟨c'.repository, rfl, hrep'⟩
    · rw [update_of_ne hsrc] at hv
      obtain ⟨w, hreads, -⟩ := h.views v f' hv
      exact h.other (write_undisturbed hasync hrep hstep (hreads.copies hsrc) hwrite)
        hwriter.keepsSnapshots hsrc (fun id _ => hwriter.keepsClone id) hv (.refl _) hrep'
  · rw [hwriter.spec]
    exact h.spec
  · unfold getSnapshotRecord
    rw [hwriter.snapshots]
    exact h.available
  · unfold getCloneRecord
    rw [hwriter.clones]
    exact h.clones
  · rw [hwriter.snapshots, hwriter.snapshotPages]
    exact h.unusedSnapshot
  · rw [hwriter.clones, hwriter.cloneDeltaPages]
    exact h.unusedClone

open Option

/-- A clone write patches the array of the clone and no other. -/
theorem writeClone (h : ViewsShow g size c arrays) (hgeom : req.HasGeometry g)
    (hzero : req.ZeroData) (hwrite : Namrbd.writeClone .reliable c cloneID req = (.ok resp, c')) :
    ViewsShow g size c' (update arrays (.clone cloneID)
      ((arrays (.clone cloneID)).map (resp.apply req))) := by
  obtain ⟨hreplay, clone0, hrec⟩ := getCloneRecord_of_writeClone hgeom hwrite
  obtain ⟨f, hf⟩ := h.clones cloneID clone0 hrec
  obtain ⟨w, ⟨clone, rfl, hclone, hbase, rfl⟩, hrep⟩ := h.views _ f hf
  obtain ⟨state, plan, plan', next, exec, alloc, hwrit⟩ :=
    writeClone_written hclone hrep hgeom hzero hwrite
  obtain ⟨clone', hclone', hsame⟩ := hwrit.readable hclone
  have hundist := hwrit.undisturbed hrep hgeom
  have hstep := hwrit.put.cloneStep
  have hrep' := hwrit.represents hrep hgeom hclone' hsame
  have happly : resp.apply req = fun f => Window.patch f req.offsetBytes req.bytes := by
    funext f
    rw [WriteResponse.apply, hreplay, if_neg Bool.false_ne_true]
  have hspec : c'.repository.spec = c.repository.spec := by rw [hstep.same]
  have hsnaps : c'.repository.snapshots = c.repository.snapshots := by rw [hstep.same]
  have hroots : c'.repository.snapshotPages = c.repository.snapshotPages := by rw [hstep.same]
  rw [hf, happly]
  constructor
  · obtain ⟨f0, hf0, hblank⟩ := h.source
    refine ⟨f0, hf0, ?_⟩
    rw [hstep.same]
    exact hblank
  · intro v f' hv
    by_cases hself : v = .clone clone.cloneID
    · subst hself
      rw [update_self] at hv
      cases hv
      refine ⟨_, ⟨clone', hsame.cloneID_eq, hclone', ?_, rfl⟩, hrep'⟩
      rw [hsame.cloneBaseRootID_eq]
      exact (hstep.keepsSnapshots _ hbase).1
    · rw [update_of_ne hself] at hv
      by_cases hsrc : v = .source
      · -- the pages of the volume are where they were
        subst hsrc
        obtain ⟨f0, hf0, -, hvol⟩ := h.represents
        obtain rfl : f0 = f' := some.inj (hf0.symm.trans hv)
        have hpages : c'.repository.pages = c.repository.pages := by rw [hstep.same]
        have hexts : c'.repository.extents = c.repository.extents := by rw [hstep.same]
        have hwf : c'.repository.PagesWF g := by
          unfold PagesWF
          rw [hpages]
          exact hvol.pagesWF
        exact ⟨_, rfl, hundist.represents hvol (.refl _) (.refl _) hwf
          (fun k => congrFun (liveEntry_congr hpages hexts) k) (.view ..) hrep'⟩
      · refine h.other hundist hstep.keepsSnapshots hsrc (fun id hid => ?_) hv (.view ..) hrep'
        exact hstep.keepsClone fun heq => hself (hid.trans (congrArg View.clone heq))
  · rw [hspec]
    exact h.spec
  · unfold getSnapshotRecord
    rw [hsnaps]
    exact h.available
  · intro id clone1 hclone1
    by_cases hid : id = clone.cloneID
    · subst hid
      exact ⟨_, update_self _ _ _⟩
    · rw [(hstep.others id hid).1] at hclone1
      obtain ⟨f1, hf1⟩ := h.clones id clone1 hclone1
      exact ⟨f1, (update_of_ne (fun heq => hid (View.clone.inj heq)) _ _).trans hf1⟩
  · rw [hsnaps, hroots]
    exact h.unusedSnapshot
  · intro id hnone
    have hid : id ≠ clone.cloneID := by
      rintro rfl
      have hget := orNotFound_eq_ok.mp hclone'.record
      rw [hsame.cloneID_eq] at hget
      exact nomatch hnone.symm.trans hget
    rw [(hstep.others id hid).2]
    apply h.unusedClone
    have hrec := (hstep.others id hid).1
    unfold getCloneRecord at hrec
    rw [hnone] at hrec
    cases hget : get? (·.cloneID) id c.repository.clones with
    | none => rfl
    | some clone1 =>
      rw [hget] at hrec
      cases hrec

/-! ### Creations -/

section

variable (h : ViewsShow g size c arrays)

include h

section

variable (hmade : SnapshotMade g c.repository snapshotID state pages m')

include hmade

theorem snapshotMade_views (hf : arrays v = some f) :
    ∃ w, v.Reads g m' w ∧ Represents g size w c.stores f := by
  obtain ⟨f0, hf0, -, hrep⟩ := h.represents
  have hvol := hmade.sameVolume
  have hundist : Undisturbed c { c with repository := m' } := .of_stores hvol rfl
  have hrep' := hvol.represents (by rw [hmade.same]) hrep
  by_cases hsrc : v = .source
  · subst hsrc
    obtain rfl : f0 = f := some.inj (hf0.symm.trans hf)
    exact ⟨m', rfl, hrep'⟩
  · exact h.other hundist hmade.keepsSnapshots hsrc (fun id _ => hmade.keepsClone id) hf
      (.refl _) hrep'

/-- A snapshot that is made, available or not, with the arrays it leaves the views. -/
theorem snapshotMade {arrays' : Arrays}
    (hothers : ∀ v, v ≠ .snapshot snapshotID → arrays' v = arrays v)
    (hnew : ∀ f, arrays' (.snapshot snapshotID) = some f →
      ∃ w, View.Reads g m' (.snapshot snapshotID) w ∧ Represents g size w c.stores f)
    (havail : state = .available → ∃ f, arrays' (.snapshot snapshotID) = some f) :
    ViewsShow g size { c with repository := m' } arrays' := by
  constructor
  · obtain ⟨f, hf, hblank⟩ := h.source
    refine ⟨f, (hothers .source nofun).trans hf, ?_⟩
    rw [hmade.same]
    exact hblank
  · intro v f hv
    by_cases hself : v = .snapshot snapshotID
    · subst hself
      exact hnew f hv
    · exact h.snapshotMade_views hmade ((hothers v hself).symm.trans hv)
  · rw [hmade.same]
    exact h.spec
  · intro id record hrec hstate
    by_cases hid : id = snapshotID
    · subst hid
      obtain ⟨record', hget, hstate', hpage, hchunk⟩ := hmade.record
      obtain rfl : record' = record := some.inj (hget.symm.trans (orNotFound_eq_ok.mp hrec))
      exact ⟨hpage, hchunk, havail (hstate'.symm.trans hstate)⟩
    · rw [getSnapshotRecord, hmade.others id hid] at hrec
      obtain ⟨hpage, hchunk, f, hf⟩ := h.available id record hrec hstate
      exact ⟨hpage, hchunk, f, (hothers _ fun heq => hid (View.snapshot.inj heq)).trans hf⟩
  · intro id clone hclone
    rw [hmade.same] at hclone
    obtain ⟨f, hf⟩ := h.clones id clone hclone
    exact ⟨f, (hothers (.clone id) nofun).trans hf⟩
  · intro id hnone
    have hid : id ≠ snapshotID := by
      rintro rfl
      obtain ⟨record, hget, -⟩ := hmade.record
      exact nomatch hnone.symm.trans hget
    rw [hmade.others id hid] at hnone
    rw [hmade.pages_eq, if_neg hid]
    exact h.unusedSnapshot id hnone
  · rw [hmade.same]
    exact h.unusedClone

end

theorem createSnapshot (hcaptured : Trace.run (snapshotAccess idOf) (c.repository, .idle) actions =
      some (m₁, .captured snapshotID))
    (hmark : snapshotStep idOf m₁ .markAvailable (.captured snapshotID) = some (m', .done)) :
    ViewsShow g size { c with repository := m' }
      (update arrays (.snapshot snapshotID) (arrays .source)) := by
  obtain ⟨f, hf, -, hrep⟩ := h.represents
  obtain ⟨pages, hshows, hmade⟩ := made_of_run hrep.pagesWF h.spec h.unusedSnapshot hcaptured
  have hmade' : SnapshotMade g c.repository snapshotID .available
      (putAll (·.pageNo) pages []) m' := by
    rw [snapshotStep] at hmark
    split at hmark
    · cases hmark
    · next hstate =>
      cases hmark
      exact hmade.markSnapshotState hstate
  refine h.snapshotMade hmade' (fun v hv => update_of_ne hv _ _) (fun f' hf' => ?_)
    fun _ => ⟨f, by rw [update_self, hf]⟩
  rw [update_self, hf] at hf'
  cases hf'
  obtain ⟨record, hget, hstate, -⟩ := hmade'.record
  have hpages : m'.snapshotPages snapshotID = putAll (·.pageNo) pages [] := by
    rw [hmade'.pages_eq, if_pos rfl]
  have hwf : ∀ page ∈ m'.snapshotPages snapshotID, page.WF g := by
    rw [hpages]
    exact hshows.wf_putAll
  refine ⟨_, ⟨⟨record, orNotFound_eq_ok.mpr hget, hstate⟩, hwf, rfl⟩, ?_⟩
  have hundist : Undisturbed c { c with repository := m' } := .of_stores hmade'.sameVolume rfl
  obtain ⟨w, hw, hrep'⟩ := h.snapshotMade_views hmade' hf
  refine hundist.represents hrep (.refl _) (.view ..) (pagesWF_view hwf (by simp))
    (fun k => ?_) hw.sameVolume hrep'
  rw [snapshotView, liveEntry_view_nil, hpages]
  exact hshows.nativeEntry_putAll k

/-- A new clone shows what its snapshot shows. -/
theorem createClone {req : CreateCloneRequest} {actions : List CloneAction}
    (hrun : Trace.run (cloneAccess req) (c.repository, .idle) actions = some (m', .done)) :
    ViewsShow g size { c with repository := m' }
      (update arrays (.clone req.cloneID) (arrays (.snapshot req.sourceSnapshotID))) := by
  obtain ⟨source, clone, hmade⟩ := cloneMade_of_run hrun
  obtain ⟨hpage, hchunk, f, hf⟩ := h.available _ _ hmade.source_eq hmade.available
  obtain ⟨f0, hf0, hblank, hrep0⟩ := h.represents
  have hvol := hmade.sameVolume
  have hundist : Undisturbed c { c with repository := m' } := .of_stores hvol rfl
  have hrep0' := hvol.represents (by rw [hmade.same]) hrep0
  have hroots : m'.snapshotPages = c.repository.snapshotPages := by rw [hmade.same]
  have hdelta : m'.cloneDeltaPages clone.cloneID = [] := by
    rw [hmade.same]
    exact h.unusedClone _ (hmade.cloneID_eq ▸ hmade.unused)
  rw [hf]
  constructor
  · refine ⟨f0, hf0, ?_⟩
    rw [hmade.same]
    exact hblank
  · intro v f' hv
    by_cases hself : v = .clone req.cloneID
    · subst hself
      rw [update_self] at hv
      cases hv
      obtain ⟨w, ⟨havail, hwf, rfl⟩, hrep⟩ := h.views _ f hf
      have hclone : m'.CloneReadable g clone := by
        refine ⟨?_, .inl hmade.state_eq, hmade.pageBytes_eq.trans hpage,
          hmade.chunkSizeBytes_eq.trans hchunk, ?_, ?_⟩
        · rw [getCloneRecord, hmade.clones_eq, get?_put_self]
          rfl
        · rw [hroots, hmade.base_eq]
          exact hwf
        · rw [hdelta]
          simp
      refine ⟨_, ⟨clone, hmade.cloneID_eq, hclone, ?_, rfl⟩, ?_⟩
      · rw [hmade.base_eq]
        exact (hmade.keepsSnapshots _ havail).1
      refine hundist.represents hrep (.view ..) (.view ..) hclone.pagesWF (fun k => ?_)
        (.refl _) hrep0'
      simp only [cloneView, snapshotView, liveEntry_view, hdelta,
        hroots, hmade.base_eq, get?_nil, map_none, getD_none]
    · rw [update_of_ne hself] at hv
      by_cases hsrc : v = .source
      · subst hsrc
        obtain rfl : f0 = f' := some.inj (hf0.symm.trans hv)
        exact ⟨m', rfl, hrep0'⟩
      · exact h.other hundist hmade.keepsSnapshots hsrc (fun id _ => hmade.keepsClone id)
          hv (.refl _) hrep0'
  · rw [hmade.same]
    exact h.spec
  · intro id record hrec hstate
    have hget := orNotFound_eq_ok.mp hrec
    rw [hmade.snapshots_eq, get?_put] at hget
    split at hget
    · next hid =>
      cases hget
      obtain rfl := (key_of_get? (orNotFound_eq_ok.mp hmade.source_eq)).symm.trans hid
      exact ⟨hpage, hchunk, f, hf⟩
    · exact h.available id record (orNotFound_eq_ok.mpr hget) hstate
  · intro id clone' hclone'
    by_cases hid : id = req.cloneID
    · subst hid
      exact ⟨_, update_self _ _ _⟩
    have hget := orNotFound_eq_ok.mp hclone'
    rw [hmade.clones_eq, get?_put_of_ne fun heq => hid (heq.symm.trans hmade.cloneID_eq)] at hget
    obtain ⟨f', hf'⟩ := h.clones id clone' (orNotFound_eq_ok.mpr hget)
    exact ⟨f', (update_of_ne (fun heq => hid (View.clone.inj heq)) _ _).trans hf'⟩
  · intro id hnone
    rw [hroots]
    apply h.unusedSnapshot
    rw [hmade.snapshots_eq, get?_put] at hnone
    split at hnone
    · cases hnone
    · exact hnone
  · intro id hnone
    rw [hmade.clones_eq, get?_put] at hnone
    split at hnone
    · cases hnone
    · rw [hmade.same]
      exact h.unusedClone id hnone

end

end ViewsShow

/-! ## Runs -/

/-- A volume without snapshots and clones, and its specification. -/
structure Unshared (g : Geometry) (m : Repository) : Prop where
  noSnapshots : m.snapshots = []
  noClones : m.clones = []
  noSnapshotPages : ∀ id, m.snapshotPages id = []
  noDeltaPages : ∀ id, m.cloneDeltaPages id = []
  spec : ∀ spec, m.spec = some spec → spec.HasGeometry g

namespace ViewRun

variable {start : Cluster}

end ViewRun

/-! ## A snapshot that changes -/

namespace SharedVolume

/-- A volume of one extent of two chunks with its specification; its mapping owns the ids from
`chunkID` on. -/
def cluster (chunkID : Nat) : Cluster :=
  let c := LegacyVolume.cluster chunkID
  { c with repository := { c.repository with
      spec := some { sizeBytes := 8, blockSize := 4, extentPageBytes := 8, chunkSizeBytes := 4 } } }

/-- The accesses of the creation of a snapshot of one page, up to its capture. -/
def capture : List SnapshotAction :=
  [.readVolume, .readSpec, .createRecord, .listPages, .readPage, .readPage, .capture]

theorem newVolume (chunkID : Nat) : NewVolume geometry 8 (cluster chunkID) :=
  ⟨(LegacyVolume.newVolume chunkID).layout, rfl, (LegacyVolume.newVolume chunkID).noPayload⟩

theorem unshared (chunkID : Nat) : Unshared geometry (cluster chunkID).repository where
  noSnapshots := rfl
  noClones := rfl
  noSnapshotPages := fun _ => rfl
  noDeltaPages := fun _ => rfl
  spec := by
    rintro spec ⟨⟩
    exact ⟨rfl, rfl⟩

def filled (chunkID : Nat) : Cluster :=
  (write {} 0 .reliable (cluster chunkID) (LegacyVolume.request "k1" 0 65)).2

end SharedVolume

section Stopped

/-- A call of `CreateSnapshot`, with the ids it tries, that stops after some accesses. Once a
snapshot is recorded for the key of the call, the call returns it and does nothing: `none`. -/
def createSnapshot (m : Repository) : Option ((Nat → String) × List SnapshotAction) →
    Option Repository
  | none => some m
  | some (idOf, actions) => (Trace.run (snapshotAccess idOf) (m, .idle) actions).map (·.1)

/-- The pages hold every chunk of the volume. -/
def ShowsVolume (g : Geometry) (m : Repository) (pages : List AllocationPageRecord) : Prop :=
  (∀ page ∈ pages, page.WF g) ∧ ∀ chunk, nativeEntry g pages chunk = m.liveEntry g chunk

/-- What calls have made of `m`: the volume is the same, and of the new snapshots those that are
available are captured. -/
structure SnapshotsMade (g : Geometry) (m m' : Repository) : Prop where
  same : m' = { m with snapshots := m'.snapshots, snapshotPages := m'.snapshotPages }
  unused : ∀ id, get? (·.snapshotID) id m'.snapshots = none → m'.snapshotPages id = []
  captured : ∀ id, get? (·.snapshotID) id m.snapshots = none → m'.Available id →
    ShowsVolume g m (m'.snapshotPages id)

theorem SnapshotsMade.snapshotMade (h : SnapshotsMade g m m₁)
    (hmade : SnapshotMade g m₁ id state pages m')
    (havail : state = .available → ShowsVolume g m₁ pages) : SnapshotsMade g m m' := by
  obtain ⟨record, hget, hstate, -⟩ := hmade.record
  refine ⟨by rw [hmade.same, h.same], fun id' hnone => ?_, fun id' hnew hav => ?_⟩
  · rw [hmade.pages_eq, if_neg]
    · refine h.unused id' (hmade.others id' ?_ ▸ hnone)
      rintro rfl
      exact nomatch hget.symm.trans hnone
    · rintro rfl
      exact nomatch hget.symm.trans hnone
  · obtain ⟨record', hrec, hstate'⟩ := hav
    have hget' := orNotFound_eq_ok.mp hrec
    rw [hmade.pages_eq]
    split
    · next hid =>
      subst hid
      cases hget.symm.trans hget'
      have hshows := havail (hstate.symm.trans hstate')
      rw [h.same] at hshows
      exact hshows
    · next hid =>
      rw [hmade.others id' hid] at hget'
      exact h.captured id' hnew ⟨record', orNotFound_eq_ok.mpr hget', hstate'⟩

theorem SnapshotsMade.createSnapshot {call : Option ((Nat → String) × List SnapshotAction)}
    (hwf : m.PagesWF g) (hspec : ∀ spec, m.spec = some spec → spec.HasGeometry g)
    (h : SnapshotsMade g m m₁) (hcall : createSnapshot m₁ call = some m') :
    SnapshotsMade g m m' := by
  cases call with
  | none =>
    cases hcall
    exact h
  | some call =>
    obtain ⟨⟨m', phase⟩, hrun, rfl⟩ := Option.map_eq_some_iff.mp hcall
    have hwf1 : m₁.PagesWF g := by rw [h.same]; exact hwf
    have hspec1 : ∀ spec, m₁.spec = some spec → spec.HasGeometry g := by rw [h.same]; exact hspec
    have hmade := made_of_run hwf1 hspec1 h.unused hrun
    by_cases hdone : phase = .done
    · subst hdone
      obtain ⟨snapshotID, pages, hshows, hmade⟩ := hmade
      exact h.snapshotMade hmade fun _ => ⟨hshows.wf_putAll, hshows.nativeEntry_putAll⟩
    · rcases hmade.of_ne_done hdone with rfl | ⟨snapshotID, state, pages, hstate, hmade⟩
      · exact h
      · exact h.snapshotMade hmade fun heq => (hstate heq).elim

/-- However the calls stop, a new snapshot that a clone is created from is available, and one
that is available has captured every chunk of the volume: reading it is reading a volume with
these chunks. -/
theorem available_snapshot_captured (hwf : m.PagesWF g)
    (hspec : ∀ spec, m.spec = some spec → spec.HasGeometry g)
    (hunused : ∀ id, get? (·.snapshotID) id m.snapshots = none → m.snapshotPages id = [])
    {calls : List (Option ((Nat → String) × List SnapshotAction))}
    (hcalls : Trace.run createSnapshot m calls = some m')
    (hnew : get? (·.snapshotID) id m.snapshots = none) :
    (∀ req actions m'', req.sourceSnapshotID = id →
      Trace.run (cloneAccess req) (m', .idle) actions = some (m'', .done) → m'.Available id) ∧
    (m'.Available id →
      (∀ chunk, nativeEntry g (m'.snapshotPages id) chunk = m.liveEntry g chunk) ∧
      (∀ chunk, (m'.snapshotView g id).liveEntry g chunk = m.liveEntry g chunk) ∧
      ∀ off len, 0 < len →
        m'.resolveSnapshotAllocationPages id off len g.pageBytes g.chunkSizeBytes =
          (m'.snapshotView g id).resolveAllocationPages off len g.pageBytes g.chunkSizeBytes) := by
  have hmade := Trace.run_invariant (SnapshotsMade g m) (fun _ _ _ h => h.createSnapshot hwf hspec)
    ⟨rfl, hunused, fun id hnone ⟨_, hrec, _⟩ => nomatch
      hnone.symm.trans (orNotFound_eq_ok.mp hrec)⟩ hcalls
  constructor
  · rintro req actions m'' rfl hclone
    obtain ⟨source, clone, hclone⟩ := cloneMade_of_run hclone
    exact ⟨source, hclone.source_eq, hclone.available⟩
  · intro havail
    obtain ⟨hpages, hentries⟩ := hmade.captured id hnew havail
    obtain ⟨record, hrec, -⟩ := havail
    exact ⟨hentries, fun chunk => (liveEntry_view_nil chunk).trans (hentries chunk),
      fun off len hlen => resolveSnapshotAllocationPages_eq ⟨record, hrec⟩ hpages hlen⟩

end Stopped

namespace SharedVolume

/-- A call stops once the record is there and is made again: the snapshot is found and reads as
zeros, though the volume does not. -/
theorem stopped_snapshot_reads_zero :
    ∃ m, Trace.run createSnapshot (filled 0).repository
        [some (fun _ => "s", [.readVolume, .readSpec, .createRecord]), none] = some m ∧
      (m.getSnapshotRecord "s").map (·.state) = .ok .creating ∧
      readView .reliable { filled 0 with repository := m } (.snapshot "s") ⟨0, 4, 8, 4⟩ =
        .ok (List.replicate 4 0) ∧
      readView .reliable { filled 0 with repository := m } .source ⟨0, 4, 8, 4⟩ =
        .ok (List.replicate 4 65) :=
  ⟨_, rfl, by decide, by decide, by decide⟩

/-- The snapshot of a volume with a written chunk is captured and finished. -/
theorem finished_snapshot_captured :
    ∃ m, Trace.run createSnapshot (filled 0).repository
        [some (fun _ => "s", capture ++ [.markAvailable])] = some m ∧
      (filled 0).repository.liveEntry LegacyVolume.geometry 0 = ⟨1, none⟩ ∧
      ∀ chunk, (m.snapshotView LegacyVolume.geometry "s").liveEntry LegacyVolume.geometry chunk =
        (filled 0).repository.liveEntry LegacyVolume.geometry chunk := by
  have hwf : (filled 0).repository.PagesWF LegacyVolume.geometry := by
    intro page hpage
    rw [mem_singleton.mp hpage]
    exact ⟨rfl, rfl, ⟨rfl, by decide, rfl, by decide, rfl⟩, by decide⟩
  obtain ⟨m, hcalls, havail⟩ : ∃ m, Trace.run createSnapshot (filled 0).repository
      [some (fun _ => "s", capture ++ [.markAvailable])] = some m ∧ m.Available "s" :=
    ⟨_, rfl, _, rfl, rfl⟩
  exact ⟨m, hcalls, by decide, ((available_snapshot_captured hwf (unshared 0).spec
    (fun _ _ => rfl) hcalls rfl).2 havail).2.1⟩

end SharedVolume

end Namrbd
