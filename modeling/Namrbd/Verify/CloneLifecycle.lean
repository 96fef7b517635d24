import Namrbd.Maintenance.CloneLifecycle

/-!
# Snapshot references and clone bases

`RecordEdit` says once what an access of a call can do to the snapshot and clone
records. `CountsClones` is kept by every edit that marks only counted clones, so
a snapshot's reference count is the number of its clones that are neither deleted
nor materialized; `BasesKept` is kept when a snapshot is marked deleted only while
its count is zero, so no clone that is still in use loses its base.
-/

namespace Namrbd

open Option Result Table

namespace Repository

variable {m' m : Repository} {unreferenced : Prop} {cloneID : String}

/-! ## The invariants -/

/-- The clones that the `cloneCount` of their snapshot has to count. -/
def countedClones (m : Repository) (snapshotID : String) : Nat :=
  m.clones.countP fun clone => clone.sourceSnapshotID = snapshotID ∧ clone.counted

/-- Every clone has its source snapshot, and the snapshots count their clones. -/
structure CountsClones (m : Repository) : Prop where
  snapshots : Table.Sorted (·.snapshotID) m.snapshots
  clones : Table.Sorted (·.cloneID) m.clones
  source : ∀ clone ∈ m.clones, Table.get? (·.snapshotID) clone.sourceSnapshotID m.snapshots ≠ none
  count : ∀ snapshotID snapshot, Table.get? (·.snapshotID) snapshotID m.snapshots = some snapshot →
    snapshot.cloneReferenceCount = m.countedClones snapshotID

/-- The source of a counted clone is not deleted. -/
def BasesKept (m : Repository) : Prop :=
  ∀ clone ∈ m.clones, clone.counted →
    ∀ snapshot, Table.get? (·.snapshotID) clone.sourceSnapshotID m.snapshots = some snapshot →
      snapshot.state ≠ .deleted

/-- What an access can do to the snapshot and clone records. `unreferenced` is what is known
of the run when a snapshot is marked deleted. -/
inductive RecordEdit (unreferenced : Prop) (m m' : Repository) : Prop where
  | same (hsnapshots : m'.snapshots = m.snapshots) (hclones : m'.clones = m.clones)
  | newSnapshot (snapshot : SnapshotRecord)
      (hnew : Table.get? (·.snapshotID) snapshot.snapshotID m.snapshots = none)
      (hcount : snapshot.cloneReferenceCount = 0)
      (hsnapshots : m'.snapshots = Table.put (·.snapshotID) snapshot m.snapshots)
      (hclones : m'.clones = m.clones)
  | markSnapshot (snapshot : SnapshotRecord) (state : SnapshotState) (errorMessage : String)
      (hget : Table.get? (·.snapshotID) snapshot.snapshotID m.snapshots = some snapshot)
      (hdeleted : state = .deleted → unreferenced → snapshot.cloneReferenceCount = 0)
      (hsnapshots : m'.snapshots =
        Table.put (·.snapshotID) { snapshot with state, errorMessage } m.snapshots)
      (hclones : m'.clones = m.clones)
  | newClone (source : SnapshotRecord) (clone : CloneRecord)
      (hget : Table.get? (·.snapshotID) clone.sourceSnapshotID m.snapshots = some source)
      (havailable : source.state = .available)
      (hnew : Table.get? (·.cloneID) clone.cloneID m.clones = none)
      (hcounted : clone.counted)
      (hsnapshots : m'.snapshots = Table.put (·.snapshotID)
        { source with cloneReferenceCount := source.cloneReferenceCount + 1 } m.snapshots)
      (hclones : m'.clones = Table.put (·.cloneID) clone m.clones)
  | markClone (clone : CloneRecord) (state : CloneState) (errorMessage : String)
      (hget : Table.get? (·.cloneID) clone.cloneID m.clones = some clone)
      (hcounted : clone.counted) (hstate : state ≠ .deleted ∧ state ≠ .materialized)
      (hsnapshots : m'.snapshots = m.snapshots)
      (hclones : m'.clones =
        Table.put (·.cloneID) { clone with state, errorMessage } m.clones)
  | closeClone (source source' : SnapshotRecord) (clone clone' : CloneRecord)
      (hget : Table.get? (·.cloneID) clone.cloneID m.clones = some clone)
      (hsource : Table.get? (·.snapshotID) clone.sourceSnapshotID m.snapshots = some source)
      (hclone : clone'.cloneID = clone.cloneID ∧
        clone'.sourceSnapshotID = clone.sourceSnapshotID ∧ ¬ clone'.counted)
      (hrecord : source'.snapshotID = source.snapshotID ∧ source'.state = source.state)
      (hcount : source'.cloneReferenceCount =
        source.cloneReferenceCount - (decide clone.counted).toNat)
      (hsnapshots : m'.snapshots = Table.put (·.snapshotID) source' m.snapshots)
      (hclones : m'.clones = Table.put (·.cloneID) clone' m.clones)

/-! ## Every edit keeps them -/

variable {clone clone' : CloneRecord} {snapshot : SnapshotRecord}

theorem countedClones_put (h : m.CountsClones)
    (hget : get? (·.cloneID) clone.cloneID m.clones = some clone)
    (hid : clone'.cloneID = clone.cloneID) (hsrc : clone'.sourceSnapshotID = clone.sourceSnapshotID)
    (hclones : m'.clones = put (·.cloneID) clone' m.clones) (snapshotID : String) :
    m'.countedClones snapshotID +
        (decide (clone.sourceSnapshotID = snapshotID ∧ clone.counted)).toNat =
      m.countedClones snapshotID +
        (decide (clone.sourceSnapshotID = snapshotID ∧ clone'.counted)).toNat := by
  unfold countedClones
  rw [hclones, h.clones.countP_put _ (by rw [hid]; exact hget), hsrc]

theorem countedClones_congr (hclones : m'.clones = m.clones) (snapshotID : String) :
    m'.countedClones snapshotID = m.countedClones snapshotID := by
  unfold countedClones
  rw [hclones]

theorem countedClones_pos (hmem : clone ∈ m.clones) (h : clone.counted) :
    0 < m.countedClones clone.sourceSnapshotID :=
  List.countP_pos_iff.mpr ⟨clone, hmem, by simp [h]⟩

section

variable (h : m.CountsClones)

include h

theorem CountsClones.putSnapshot (hsnaps : m'.snapshots = put (·.snapshotID) snapshot m.snapshots)
    (hclones : Table.Sorted (·.cloneID) m'.clones) (hsrc : ∀ clone ∈ m'.clones,
      get? (·.snapshotID) clone.sourceSnapshotID m.snapshots ≠ none)
    (hcount : snapshot.cloneReferenceCount = m'.countedClones snapshot.snapshotID)
    (hother : ∀ id, snapshot.snapshotID ≠ id → m'.countedClones id = m.countedClones id) :
    m'.CountsClones := by
  refine ⟨hsnaps ▸ h.snapshots.put snapshot, hclones, ?_, ?_⟩
  · intro clone hclone
    rw [hsnaps]
    exact get?_put_ne_none (hsrc clone hclone) snapshot
  · intro snapshotID record hget
    rw [hsnaps, get?_put] at hget
    split at hget
    · next hid =>
      cases hget
      rw [← hid]
      exact hcount
    · next hne =>
      rw [hother snapshotID hne]
      exact h.count snapshotID record hget

theorem CountsClones.source_put (hclones : m'.clones = put (·.cloneID) clone' m.clones)
    (hsrc : get? (·.snapshotID) clone'.sourceSnapshotID m.snapshots ≠ none) :
    ∀ clone ∈ m'.clones, get? (·.snapshotID) clone.sourceSnapshotID m.snapshots ≠ none := by
  intro clone hclone
  rw [hclones] at hclone
  rcases mem_put hclone with rfl | hclone
  · exact hsrc
  · exact h.source clone hclone

/-- An edit keeps the counts. -/
theorem CountsClones.edit (hedit : RecordEdit unreferenced m m') : m'.CountsClones := by
  cases hedit with
  | same hsnaps hclones =>
    refine ⟨hsnaps ▸ h.snapshots, hclones ▸ h.clones, ?_, ?_⟩
    · rw [hclones, hsnaps]
      exact h.source
    · unfold countedClones
      rw [hclones, hsnaps]
      exact h.count
  | newSnapshot snapshot hnew hcount hsnaps hclones =>
    refine h.putSnapshot hsnaps (hclones ▸ h.clones) (hclones ▸ h.source) ?_
      fun id _ => countedClones_congr hclones id
    rw [hcount, countedClones_congr hclones, eq_comm, countedClones, List.countP_eq_zero]
    intro clone hclone hof
    exact h.source clone hclone (by rw [(of_decide_eq_true hof).1]; exact hnew)
  | markSnapshot snapshot state errorMessage hget _ hsnaps hclones =>
    refine h.putSnapshot hsnaps (hclones ▸ h.clones) (hclones ▸ h.source) ?_
      fun id _ => countedClones_congr hclones id
    rw [countedClones_congr hclones]
    exact h.count _ snapshot hget
  | newClone source clone hget _ hnew hcnt hsnaps hclones =>
    have hkey : source.snapshotID = clone.sourceSnapshotID := key_of_get? hget
    have hput : ∀ snapshotID, m'.countedClones snapshotID = m.countedClones snapshotID +
        (decide (clone.sourceSnapshotID = snapshotID ∧ clone.counted)).toNat := by
      intro snapshotID
      unfold countedClones
      rw [hclones, countP_put_of_get?_eq_none _ hnew]
    refine h.putSnapshot hsnaps (hclones ▸ h.clones.put clone)
      (h.source_put hclones (by simp [hget])) ?_ fun id hne => ?_
    · rw [hput, hkey, h.count _ source hget]
      simp [hcnt]
    · rw [hput]
      simp [← hkey, hne]
  | markClone clone state errorMessage hget hcnt hstate hsnaps hclones =>
    have hsrc := h.source_put hclones (h.source clone (mem_of_get? hget))
    refine ⟨hsnaps ▸ h.snapshots, hclones ▸ h.clones.put _, hsnaps ▸ hsrc, ?_⟩
    intro snapshotID record hrec
    have hcnt' : CloneRecord.counted { clone with state, errorMessage } := hstate
    have hput := countedClones_put h hget (by rfl) (by rfl) hclones snapshotID
    simp only [hcnt, hcnt'] at hput
    rw [hsnaps] at hrec
    rw [h.count snapshotID record hrec]
    omega
  | closeClone source source' clone clone' hget hsrc hclone hrec hcount hsnaps hclones =>
    -- the clone gives up the reference it holds, if it holds one
    obtain ⟨hcloneID, hsourceID, hcnt⟩ := hclone
    have hmem := mem_of_get? hget
    have hkey : source'.snapshotID = clone.sourceSnapshotID := hrec.1.trans (key_of_get? hsrc)
    have hput := countedClones_put h hget hcloneID hsourceID hclones
    refine h.putSnapshot hsnaps (hclones ▸ h.clones.put clone')
      (h.source_put hclones (hsourceID ▸ h.source clone hmem)) ?_ fun id hne => ?_
    · have hput := hput clone.sourceSnapshotID
      have hold := h.count _ source hsrc
      rw [hkey]
      by_cases hwas : clone.counted
      · have hpos := countedClones_pos hmem hwas
        simp [hwas, hcnt] at hput hcount
        omega
      · simp [hwas, hcnt] at hput hcount
        omega
    · have hput := hput id
      simp [← hkey, hne] at hput
      exact hput

end

/-- A counted clone keeps its base: a snapshot is deleted when it has none, and a clone is made
of an available one. -/
theorem BasesKept.edit (h : m.BasesKept) (hcounts : m.CountsClones) (hunreferenced : unreferenced)
    (hedit : RecordEdit unreferenced m m') : m'.BasesKept := by
  intro clone hclone hcnt snapshot hget
  cases hedit with
  | same hsnaps hclones =>
    rw [hclones] at hclone
    rw [hsnaps] at hget
    exact h clone hclone hcnt snapshot hget
  | newSnapshot new hnew hcount hsnaps hclones =>
    rw [hclones] at hclone
    rw [hsnaps, get?_put] at hget
    split at hget
    · next hid => exact absurd (hid ▸ hnew) (hcounts.source clone hclone)
    · exact h clone hclone hcnt snapshot hget
  | markSnapshot record state errorMessage hrec hdel hsnaps hclones =>
    rw [hclones] at hclone
    rw [hsnaps, get?_put] at hget
    split at hget
    · next hid =>
      cases hget
      intro hstate
      have hzero := hdel hstate hunreferenced
      have hpos := countedClones_pos hclone hcnt
      rw [← hcounts.count _ record (by rw [← hid]; exact hrec)] at hpos
      omega
    · exact h clone hclone hcnt snapshot hget
  | newClone source new hsrc havail hnew _ hsnaps hclones =>
    rw [hsnaps, get?_put] at hget
    split at hget
    · cases hget
      simp [havail]
    next hne =>
    rw [hclones] at hclone
    rcases mem_put hclone with rfl | hclone
    · exact absurd (key_of_get? hsrc) hne
    · exact h clone hclone hcnt snapshot hget
  | markClone old state errorMessage hold holdCounted hstate hsnaps hclones =>
    rw [hsnaps] at hget
    rw [hclones] at hclone
    rcases mem_put hclone with rfl | hclone
    · exact h old (mem_of_get? hold) holdCounted snapshot hget
    · exact h clone hclone hcnt snapshot hget
  | closeClone source source' old old' hold hsrc hclosed hrec hcount hsnaps hclones =>
    rw [hclones] at hclone
    rcases mem_put hclone with rfl | hclone
    · exact absurd hcnt hclosed.2.2
    rw [hsnaps, get?_put] at hget
    split at hget
    · next hid =>
      cases hget
      rw [hrec.2]
      refine h clone hclone hcnt source ?_
      rw [← hid, hrec.1, key_of_get? hsrc]
      exact hsrc
    · exact h clone hclone hcnt snapshot hget

/-! ## What the accesses do -/

variable {snapshotID errorMessage : String}

theorem getSnapshotRecord_eq_ok (h : m.getSnapshotRecord snapshotID = .ok snapshot) :
    get? (·.snapshotID) snapshotID m.snapshots = some snapshot ∧ snapshot.snapshotID = snapshotID :=
  have hget := orNotFound_eq_ok.mp h
  ⟨hget, key_of_get? hget⟩

theorem getCloneRecord_eq_ok (h : m.getCloneRecord cloneID = .ok clone) :
    get? (·.cloneID) cloneID m.clones = some clone ∧ clone.cloneID = cloneID :=
  have hget := orNotFound_eq_ok.mp h
  ⟨hget, key_of_get? hget⟩

theorem edit_markSnapshotState {state : SnapshotState} (hdel : state = .deleted → unreferenced →
      ∀ snapshot ∈ get? (·.snapshotID) snapshotID m.snapshots,
        snapshot.cloneReferenceCount = 0)
    (h : m.markSnapshotState snapshotID state errorMessage = .ok m') :
    RecordEdit unreferenced m m' := by
  obtain ⟨snapshot, hsnap, hput⟩ := bind_eq_ok.mp h
  obtain ⟨hget, rfl⟩ := getSnapshotRecord_eq_ok hsnap
  cases hput
  exact .markSnapshot snapshot state errorMessage hget
    (fun hstate hunref => hdel hstate hunref snapshot hget) rfl rfl

theorem edit_createCloneRecord (hcnt : clone.counted) (h : m.createCloneRecord clone = .ok m') :
    RecordEdit unreferenced m m' := by
  obtain ⟨source, hsrc, h⟩ := bind_eq_ok.mp h
  obtain ⟨hget, hid⟩ := getSnapshotRecord_eq_ok hsrc
  obtain ⟨havail, h⟩ := throwIf_eq_ok.mp h
  obtain ⟨-, h⟩ := throwIf_eq_ok.mp h
  dsimp only at h
  generalize (if clone.sizeBytes = 0 then source.sourceSizeBytes else clone.sizeBytes) =
    sizeBytes at h
  split at h
  · cases h
  next hnew =>
  cases h
  refine .newClone source { clone with
      cloneBaseRootID := source.snapshotID
      allocationChunkSizeBytes := source.allocationChunkSizeBytes
      allocationPageSizeBytes := source.allocationPageSizeBytes
      sizeBytes } hget (not_not.mp havail) hnew hcnt rfl rfl

theorem edit_markCloneState {state : CloneState}
    (hcnt : ∀ clone ∈ get? (·.cloneID) cloneID m.clones, clone.counted)
    (hstate : state ≠ .deleted ∧ state ≠ .materialized)
    (h : m.markCloneState cloneID state errorMessage = .ok m') : RecordEdit unreferenced m m' := by
  obtain ⟨clone, hclone, hput⟩ := bind_eq_ok.mp h
  obtain ⟨hget, rfl⟩ := getCloneRecord_eq_ok hclone
  cases hput
  exact .markClone clone state errorMessage hget (hcnt clone hget) hstate rfl rfl

theorem edit_markCloneMaterialized {materializedVolumeID : String}
    (h : m.markCloneMaterialized cloneID materializedVolumeID = .ok m') :
    RecordEdit unreferenced m m' := by
  obtain ⟨clone, hclone, hrest⟩ := bind_eq_ok.mp h
  obtain ⟨hget, rfl⟩ := getCloneRecord_eq_ok hclone
  obtain ⟨hdel, hrest⟩ := throwIf_eq_ok.mp hrest
  obtain ⟨-, hrest⟩ := throwIf_eq_ok.mp hrest
  split at hrest
  · split at hrest
    · cases hrest
    · cases hrest
      exact .same rfl rfl
  · next hmat =>
    obtain ⟨source, hsrc, hrest⟩ := bind_eq_ok.mp hrest
    obtain ⟨hsourceGet, -⟩ := getSnapshotRecord_eq_ok hsrc
    cases hrest
    have hcnt : clone.counted := ⟨hdel, hmat⟩
    refine .closeClone source _ clone _ hget hsourceGet ?_ ?_ ?_ rfl rfl
    · exact ⟨rfl, rfl, fun hnot => hnot.2 rfl⟩
    · exact ⟨rfl, rfl⟩
    · simp [hcnt]

theorem edit_deleteCloneRecord (h : m.deleteCloneRecord cloneID = .ok m') :
    RecordEdit unreferenced m m' := by
  obtain ⟨clone, hclone, hrest⟩ := bind_eq_ok.mp h
  obtain ⟨hget, rfl⟩ := getCloneRecord_eq_ok hclone
  split at hrest
  · cases hrest
    exact .same rfl rfl
  next hdel =>
  obtain ⟨source, hsrc, hrest⟩ := bind_eq_ok.mp hrest
  obtain ⟨hsourceGet, -⟩ := getSnapshotRecord_eq_ok hsrc
  cases hrest
  refine .closeClone source _ clone _ hget hsourceGet ?_ ?_ ?_ rfl rfl
  · exact ⟨rfl, rfl, fun hnot => hnot.1 rfl⟩
  · exact ⟨rfl, rfl⟩
  by_cases hmat : clone.state = .materialized
  · have hcnt : ¬ clone.counted := fun hcnt => hcnt.2 hmat
    simp [hmat, hcnt]
  · have hcnt : clone.counted := ⟨hdel, hmat⟩
    simp [hmat, hcnt]

end Repository

/-! ## The calls -/

open Repository

/-- The accesses of a materialization are edits. -/
theorem edit_materializeStep {targetVolumeID : String} {action : MaterializeAction}
    {phase phase' : MaterializePhase}
    (hcnt : action = .markMaterializing ∨ (∃ canceled, action = .markFailed canceled) →
      ∀ clone ∈ get? (·.cloneID) cloneID m.clones, clone.counted)
    (h : materializeStep cloneID targetVolumeID m action phase = some (m', phase')) :
    RecordEdit unreferenced m m' := by
  unfold materializeStep at h
  split at h
  case h_1 =>
    split at h
    · cases h
      exact .same rfl rfl
    · split at h <;> cases h <;> exact .same rfl rfl
  case h_2 =>
    cases h
    exact .same rfl rfl
  case h_3 =>
    split at h
    · cases h
      exact .same rfl rfl
    next hmark =>
    cases h
    refine edit_markCloneState (hcnt (.inl rfl)) ?_ hmark
    exact ⟨nofun, nofun⟩
  case h_4 =>
    cases h
    exact .same rfl rfl
  case h_5 =>
    split at h
    · cases h
      exact .same rfl rfl
    · next hmark =>
      cases h
      exact edit_markCloneMaterialized hmark
  case h_6 canceled message =>
    split at h
    · cases h
      exact .same rfl rfl
    next hmark =>
    cases h
    exact edit_markCloneState (hcnt (.inr ⟨canceled, rfl⟩)) (by cases canceled <;> decide) hmark
  case h_7 => cases h

namespace Admin

variable {ι : Type} [DecidableEq ι] {s s' : Admin ι} {event : ι × AdminAction}

/-- What a step does to the records, when materializations mark counted clones only. -/
theorem step_edit (hcnt : s.MarksCountedClone event) (h : s.step event = some s') :
    RecordEdit (s.DeletesUnreferenced event) s.repository s'.repository := by
  obtain ⟨i, action⟩ := event
  unfold step at h
  dsimp only at h
  split at h
  · unfold createSnapshotStep at h
    split at h
    · cases h
      exact .same rfl rfl
    split at h
    · cases h
    · next hstep =>
      cases h
      cases snapshotMove_of_step hstep with
      | createRecord hcreate =>
        unfold createSnapshotRecord at hcreate
        split at hcreate
        · cases hcreate
        · next hnew =>
          cases hcreate
          exact .newSnapshot _ hnew rfl rfl rfl
      | markAvailable hmark | markFailed hmark =>
        refine edit_markSnapshotState ?_ hmark
        nofun
      -- the other accesses read, or capture pages
      | _ => exact .same rfl rfl
  · unfold createCloneStep at h
    split at h
    · cases h
      exact .same rfl rfl
    split at h
    · cases h
    · next hstep =>
      cases h
      unfold cloneStep at hstep
      split at hstep
      · split at hstep <;> cases hstep <;> exact .same rfl rfl
      · split at hstep
        · cases hstep
          exact .same rfl rfl
        · next hcreate =>
          cases hstep
          refine edit_createCloneRecord ?_ hcreate
          exact ⟨nofun, nofun⟩
      · cases hstep
        exact .same rfl rfl
      · cases hstep
  · next hcall =>
    obtain ⟨⟨repository, phase⟩, hstep, hs'⟩ := map_eq_some_iff.mp h
    cases hs'
    refine edit_materializeStep ?_ hstep
    rintro (rfl | ⟨canceled, rfl⟩)
    · exact hcnt _ (by simp [marksClone, hcall])
    · exact hcnt _ (by simp [marksClone, hcall])
  · split at h
    · cases h
      exact .same rfl rfl
    · next hdelete =>
      cases h
      exact edit_deleteCloneRecord hdelete
  · next hcall =>
    obtain ⟨⟨repository, phase⟩, hstep, hs'⟩ := map_eq_some_iff.mp h
    cases hs'
    unfold deleteSnapshotStep at hstep
    split at hstep
    · split at hstep
      · cases hstep
        exact .same rfl rfl
      · split at hstep
        · cases hstep
          exact .same rfl rfl
        · split at hstep <;> cases hstep <;> exact .same rfl rfl
    · split at hstep
      · cases hstep
        exact .same rfl rfl
      · next hmark =>
        cases hstep
        refine edit_markSnapshotState (fun _ hunreferenced => ?_) hmark
        exact hunreferenced _ (by simp [deletesSnapshot, hcall])
    · cases hstep
      exact .same rfl rfl
    · cases hstep
  · cases h

/-! ## Runs -/

/-- In every run where materializations mark counted clones only, every snapshot counts its
clones that are neither deleted nor materialized. -/
theorem references_counted (s : Admin ι) (hstart : s.repository.CountsClones)
    (events : List (ι × AdminAction)) (hguarded : Trace.Guarded step MarksCountedClone s events)
    (s' : Admin ι) (hrun : Trace.run step s events = some s') (snapshot : SnapshotRecord)
    (hsnapshot : snapshot ∈ s'.repository.snapshots) :
    snapshot.cloneReferenceCount = s'.repository.countedClones snapshot.snapshotID := by
  have hcounts : s'.repository.CountsClones :=
    Trace.run_induction (fun s => s.repository.CountsClones)
      (fun s event s' h hcnt hstep => h.edit (step_edit hcnt hstep)) hstart hguarded hrun
  exact hcounts.count snapshot.snapshotID snapshot (hcounts.snapshots.get?_of_mem hsnapshot)

/-- In every run where a snapshot is marked deleted only while its reference count is zero, and
materializations mark counted clones only, no readable clone has a deleted base. -/
theorem bases_kept (s : Admin ι) (hstart : s.repository.CountsClones)
    (hbases : s.repository.BasesKept) (events : List (ι × AdminAction))
    (hguarded : Trace.Guarded step
      (fun s event => s.MarksCountedClone event ∧ s.DeletesUnreferenced event) s events)
    (s' : Admin ι) (hrun : Trace.run step s events = some s')
    (clone : CloneRecord) (hclone : clone ∈ s'.repository.clones) (hreadable : clone.readable)
    (snapshot : SnapshotRecord) (hsnapshot : snapshot ∈ s'.repository.snapshots)
    (hbase : snapshot.snapshotID = clone.sourceSnapshotID) : snapshot.state ≠ .deleted := by
  have hinv : s'.repository.CountsClones ∧ s'.repository.BasesKept := by
    refine Trace.run_induction (fun s => s.repository.CountsClones ∧ s.repository.BasesKept)
      (fun s event s' h hallowed hstep => ?_) ⟨hstart, hbases⟩ hguarded hrun
    have hedit := step_edit hallowed.1 hstep
    exact ⟨h.1.edit hedit, h.2.edit h.1 hallowed.2 hedit⟩
  obtain ⟨hcounts, hkept⟩ := hinv
  have hcnt : clone.counted := by
    rcases hreadable with h | h <;> simp [CloneRecord.counted, h]
  refine hkept clone hclone hcnt snapshot ?_
  rw [← hbase]
  exact hcounts.snapshots.get?_of_mem hsnapshot

/-! ## A snapshot, a clone of it and the calls that race -/

namespace OneSnapshot

def snapshot : SnapshotRecord :=
  { snapshotID := "s", state := .available, cutVolumeRevision := 1, allocationChunkSizeBytes := 4
    allocationPageSizeBytes := 8, sourceSizeBytes := 8 }

/-- An available snapshot without clones, and one call of each kind. -/
def start : Admin (Fin 4) where
  repository := { snapshots := [snapshot] }
  calls
    | 0 => .createClone { cloneID := "c", sourceSnapshotID := "s" } "key" .idle
    | 1 => .materializeClone "c" "target" .idle
    | 2 => .deleteClone "c"
    | 3 => .deleteSnapshot "s" .idle

theorem start_countsClones : start.repository.CountsClones where
  snapshots := List.pairwise_singleton _ _
  clones := List.Pairwise.nil
  source := by simp [start]
  count := by
    intro snapshotID record hget
    rw [start, get?_cons] at hget
    split at hget
    · cases hget
      rfl
    · cases hget

theorem start_basesKept : start.repository.BasesKept := by
  intro clone hclone
  cases hclone

def createClone : List (Fin 4 × AdminAction) :=
  [(0, .createClone .findSnapshot), (0, .createClone .createRecord)]

/-- The clone is deleted after the materialization has read it. -/
def deletedBeforeMark : List (Fin 4 × AdminAction) :=
  createClone ++ [(1, .materializeClone .readClone), (2, .deleteClone),
    (1, .materializeClone .markMaterializing)]

/-- The clone is deleted while it is copied, and the copy fails. -/
def deletedWhileCopied : List (Fin 4 × AdminAction) :=
  createClone ++ [(1, .materializeClone .readClone), (1, .materializeClone .markMaterializing),
    (2, .deleteClone), (1, .materializeClone (.fail "copy")),
    (1, .materializeClone (.markFailed false))]

/-- The reference counts, and the clones that should be counted. -/
def counts (s : Admin (Fin 4)) : List Nat × Nat :=
  (s.repository.snapshots.map (·.cloneReferenceCount), s.repository.countedClones "s")

/-- The count falls to zero while a clone still needs the snapshot. -/
theorem deleted_clone_counted_again : start.repository.CountsClones ∧
    (Trace.run step start deletedBeforeMark).map counts = some ([0], 1) ∧
    (Trace.run step start deletedWhileCopied).map counts = some ([0], 1) :=
  ⟨start_countsClones, by decide, by decide⟩

/-- The clone is being copied when the snapshot is to be deleted. -/
def deletionRefused : List (Fin 4 × AdminAction) :=
  createClone ++ [(1, .materializeClone .readClone), (1, .materializeClone .markMaterializing),
    (3, .deleteSnapshot .readSnapshot)]

/-- The clone that is being copied is counted. -/
theorem copied_clone_counted :
    ∃ s', Trace.run step start deletionRefused = some s' ∧ counts s' = ([1], 1) ∧
      ∀ snapshot ∈ s'.repository.snapshots,
        snapshot.cloneReferenceCount = s'.repository.countedClones snapshot.snapshotID := by
  obtain ⟨s', hrun, hcounts⟩ := map_eq_some_iff.mp
    (show (Trace.run step start deletionRefused).map counts = some ([1], 1) by decide)
  exact ⟨s', hrun, hcounts,
    references_counted start start_countsClones deletionRefused (by decide) s' hrun⟩

/-- The clone is created after the deletion has found no reference. -/
def createdBeforeMark : List (Fin 4 × AdminAction) :=
  [(3, .deleteSnapshot .readSnapshot)] ++ createClone ++ [(3, .deleteSnapshot .markDeleted)]

def states (s : Admin (Fin 4)) : List SnapshotState × List CloneState :=
  (s.repository.snapshots.map (·.state), s.repository.clones.map (·.state))

/-- The clone stays readable over a snapshot that is deleted. -/
theorem clone_of_deleted_snapshot : start.repository.CountsClones ∧ start.repository.BasesKept ∧
    (Trace.run step start createdBeforeMark).map states = some ([.deleted], [.available]) :=
  ⟨start_countsClones, start_basesKept, by decide⟩

/-- The snapshot of the clone that is being copied is not deleted. -/
theorem copied_clone_base_kept : ∃ s', Trace.run step start deletionRefused = some s' ∧
      states s' = ([.available], [.materializing]) ∧
      ∀ clone ∈ s'.repository.clones, clone.readable → ∀ snapshot ∈ s'.repository.snapshots,
        snapshot.snapshotID = clone.sourceSnapshotID → snapshot.state ≠ .deleted := by
  obtain ⟨s', hrun, hstates⟩ := map_eq_some_iff.mp
    (show (Trace.run step start deletionRefused).map states =
      some ([.available], [.materializing]) by decide)
  exact ⟨s', hrun, hstates,
    bases_kept start start_countsClones start_basesKept deletionRefused (by decide) s' hrun⟩

end OneSnapshot

end Admin

end Namrbd
