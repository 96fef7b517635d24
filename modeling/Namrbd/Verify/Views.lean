import Namrbd.Replication.CloneWrites
import Namrbd.Verify.Reservation

/-!
# Views of a volume

Snapshots and clones are read and written through the machinery of the volume, only with
other allocation pages. `Repository.view` is the repository that has these pages as its
own, and a write to a clone is planned as a copy on write of it, so what is known of
plans, payloads and reads of a volume holds of its views.
-/

namespace Namrbd

open List Option Repository Result Table

variable {m : Repository} {g : Geometry} {clone : CloneRecord} {off len : Nat}

def viewSnapshot : SnapshotRecord :=
  { snapshotID := "", state := .available, cutVolumeRevision := 0, allocationChunkSizeBytes := 0,
    allocationPageSizeBytes := 0 }

namespace Repository

/-- The repository with the pages of `delta` over those of `base`. A page of zeros stands at the
end, so that a view always has pages. -/
def view (g : Geometry) (m : Repository) (base delta : List AllocationPageRecord) : Repository :=
  { m with
    pages := delta ++ base ++ [zeroAllocationPage 0 g.pageBytes g.chunkSizeBytes]
    snapshots := [viewSnapshot] }

def snapshotView (g : Geometry) (m : Repository) (snapshotID : String) : Repository :=
  m.view g (m.snapshotPages snapshotID) []

def cloneView (g : Geometry) (m : Repository) (clone : CloneRecord) : Repository :=
  m.view g (m.snapshotPages clone.cloneBaseRootID) (m.cloneDeltaPages clone.cloneID)

section View

variable {base delta : List AllocationPageRecord}

theorem view_pages_ne_nil : (m.view g base delta).pages ≠ [] := by
  simp [view]

@[simp] theorem sourceWriteRequiresCopyOnWrite_view :
    sourceWriteRequiresCopyOnWrite (m.view g base delta) = true := by
  simp [sourceWriteRequiresCopyOnWrite, listSnapshotRecords, view, viewSnapshot]

theorem pagesWF_view (hbase : ∀ page ∈ base, page.WF g) (hdelta : ∀ page ∈ delta, page.WF g) :
    (m.view g base delta).PagesWF g := by
  intro page hpage
  simp only [view, mem_append, mem_singleton] at hpage
  rcases hpage with (hpage | hpage) | rfl
  · exact hdelta page hpage
  · exact hbase page hpage
  · exact zeroAllocationPage_wf g 0

theorem getD_view (pageNo : Nat) :
    (get? (·.pageNo) pageNo (m.view g base delta).pages).getD
        (zeroAllocationPage pageNo g.pageBytes g.chunkSizeBytes) =
      (get? (·.pageNo) pageNo delta).getD ((get? (·.pageNo) pageNo base).getD
        (zeroAllocationPage pageNo g.pageBytes g.chunkSizeBytes)) := by
  simp only [view, get?_append]
  cases get? (·.pageNo) pageNo delta with
  | some page => rfl
  | none =>
    cases get? (·.pageNo) pageNo base with
    | some page => rfl
    | none =>
      by_cases hzero : pageNo = 0
      · subst hzero
        rfl
      · have hne : ¬(zeroAllocationPage 0 g.pageBytes g.chunkSizeBytes).pageNo = pageNo :=
          fun h => hzero h.symm
        simp [get?_cons, hne]

theorem liveEntry_view (chunk : Nat) :
    (m.view g base delta).liveEntry g chunk =
      ((get? (·.pageNo) (g.pageOf chunk) delta).map (·.entryAt chunk)).getD
        (nativeEntry g base chunk) := by
  have hpage : (m.view g base delta).liveEntry g chunk =
      ((get? (·.pageNo) (g.pageOf chunk) (m.view g base delta).pages).getD
        (zeroAllocationPage (g.pageOf chunk) g.pageBytes g.chunkSizeBytes)).entryAt chunk := by
    rw [liveEntry, if_neg view_pages_ne_nil]
    cases hget : get? (·.pageNo) (g.pageOf chunk) (m.view g base delta).pages with
    | some page => exact nativeEntry_of_get? hget
    | none =>
      rw [nativeEntry_of_get?_none hget, getD_none, entryAt_zeroAllocationPage]
  rw [hpage, getD_view]
  cases get? (·.pageNo) (g.pageOf chunk) delta with
  | some page => rfl
  | none =>
    rw [getD_none, map_none, getD_none, nativeEntry]
    cases get? (·.pageNo) (g.pageOf chunk) base with
    | some page => rfl
    | none => exact entryAt_zeroAllocationPage _ _ _ _

@[simp] theorem liveEntry_view_nil (chunk : Nat) :
    (m.view g base []).liveEntry g chunk = nativeEntry g base chunk := by
  rw [liveEntry_view]
  rfl

end View

section Resolve

theorem resolveAllocationPages_native (hne : m.pages ≠ []) (hlen : 0 < len) :
    m.resolveAllocationPages off len g.pageBytes g.chunkSizeBytes =
      .ok (((requestPageNos g off len).map fun pageNo =>
        (get? (·.pageNo) pageNo m.pages).getD
          (zeroAllocationPage pageNo g.pageBytes g.chunkSizeBytes)).map
            (requestPage g off len)) := by
  rw [resolveAllocationPages_eq hlen, mapM_eq_ok.mpr (forall₂_map_right_iff.mpr
    (forall₂_same.mpr fun pageNo _ => getCompatibleAllocationPage_of_listed hne ?_ pageNo)), ok_bind]
  rw [listCompatibleAllocationPages, g.invalidGeometry_eq, if_neg Bool.false_ne_true, if_pos hne]

theorem resolveSnapshotAllocationPages_eq {snapshotID : String}
    (hrec : ∃ record, m.getSnapshotRecord snapshotID = .ok record)
    (hwf : ∀ page ∈ m.snapshotPages snapshotID, page.WF g) (hlen : 0 < len) :
    m.resolveSnapshotAllocationPages snapshotID off len g.pageBytes g.chunkSizeBytes =
      (m.snapshotView g snapshotID).resolveAllocationPages off len g.pageBytes
        g.chunkSizeBytes := by
  obtain ⟨record, hrec⟩ := hrec
  rw [snapshotView, resolveAllocationPages_native view_pages_ne_nil hlen]
  unfold resolveSnapshotAllocationPages
  rw [if_neg (by omega), g.invalidGeometry_eq, if_neg Bool.false_ne_true]
  have hpages : (requestPageNos g off len).mapM (fun pageNo =>
      m.capturedAllocationPage snapshotID pageNo g.pageBytes g.chunkSizeBytes) =
        .ok ((requestPageNos g off len).map fun pageNo =>
          (get? (·.pageNo) pageNo (m.view g (m.snapshotPages snapshotID) []).pages).getD
            (zeroAllocationPage pageNo g.pageBytes g.chunkSizeBytes)) := by
    rw [mapM_eq_ok, forall₂_map_right_iff]
    refine forall₂_same.mpr fun pageNo _ => ?_
    rw [getD_view, get?_nil, getD_none, capturedAllocationPage]
    cases hget : get? (·.pageNo) pageNo (m.snapshotPages snapshotID) with
    | some page =>
      have hpage := hwf page (mem_of_get? hget)
      simp [hpage.pageBytes_eq, hpage.chunkSizeBytes_eq]
    | none => simp [hrec, zeroAllocationPage]
  simp only [requestPageNos, Geometry.pageOf, Geometry.chunksPerPage] at hpages ⊢
  rw [hpages]
  rfl

/-- A clone that can be read: its pages have the geometry of its requests. -/
structure CloneReadable (g : Geometry) (m : Repository) (clone : CloneRecord) : Prop where
  record : m.getCloneRecord clone.cloneID = .ok clone
  state : clone.state = .available ∨ clone.state = .materializing
  pageBytes_eq : clone.allocationPageSizeBytes = g.pageBytes
  chunkSizeBytes_eq : clone.allocationChunkSizeBytes = g.chunkSizeBytes
  base : ∀ page ∈ m.snapshotPages clone.cloneBaseRootID, page.WF g
  delta : ∀ page ∈ m.cloneDeltaPages clone.cloneID, page.WF g

theorem CloneReadable.pagesWF (h : m.CloneReadable g clone) : (m.cloneView g clone).PagesWF g :=
  pagesWF_view h.base h.delta

/-- The pages of a clone are those of its view. -/
theorem CloneReadable.resolveCloneAllocationPages_eq (h : m.CloneReadable g clone) (hlen : 0 < len) :
    m.resolveCloneAllocationPages clone.cloneID off len g.pageBytes g.chunkSizeBytes =
      (m.cloneView g clone).resolveAllocationPages off len g.pageBytes g.chunkSizeBytes := by
  rw [cloneView, resolveAllocationPages_native view_pages_ne_nil hlen]
  have hbase : (requestPageNos g off len).mapM (fun pageNo =>
      m.cloneBasePage clone pageNo g.pageBytes g.chunkSizeBytes) =
        .ok ((requestPageNos g off len).map fun pageNo =>
          (get? (·.pageNo) pageNo (m.snapshotPages clone.cloneBaseRootID)).getD
            (zeroAllocationPage pageNo g.pageBytes g.chunkSizeBytes)) := by
    rw [mapM_eq_ok, forall₂_map_right_iff]
    refine forall₂_same.mpr fun pageNo _ => ?_
    unfold cloneBasePage
    cases hget : get? (·.pageNo) pageNo (m.snapshotPages clone.cloneBaseRootID) with
    | some page =>
      have hpage := h.base page (mem_of_get? hget)
      simp [hpage.pageBytes_eq, hpage.chunkSizeBytes_eq]
    | none => simp [zeroAllocationPage]
  have hoverlay : ((requestPageNos g off len).map fun pageNo =>
      (get? (·.pageNo) pageNo (m.snapshotPages clone.cloneBaseRootID)).getD
        (zeroAllocationPage pageNo g.pageBytes g.chunkSizeBytes)).mapM
          (m.cloneOverlayPage clone.cloneID g.pageBytes g.chunkSizeBytes) =
      .ok ((requestPageNos g off len).map fun pageNo =>
        (get? (·.pageNo) pageNo (m.view g (m.snapshotPages clone.cloneBaseRootID)
          (m.cloneDeltaPages clone.cloneID)).pages).getD
            (zeroAllocationPage pageNo g.pageBytes g.chunkSizeBytes)) := by
    rw [mapM_eq_ok, forall₂_map_left_iff, forall₂_map_right_iff]
    refine forall₂_same.mpr fun pageNo _ => ?_
    rw [getD_view]
    have hnumber : ((get? (·.pageNo) pageNo (m.snapshotPages clone.cloneBaseRootID)).getD
        (zeroAllocationPage pageNo g.pageBytes g.chunkSizeBytes)).pageNo = pageNo := by
      cases hget : get? (·.pageNo) pageNo (m.snapshotPages clone.cloneBaseRootID) with
      | some page => exact key_of_get? hget
      | none => rfl
    unfold cloneOverlayPage
    rw [hnumber]
    cases hget : get? (·.pageNo) pageNo (m.cloneDeltaPages clone.cloneID) with
    | some page =>
      have hpage := h.delta page (mem_of_get? hget)
      simp [hpage.pageBytes_eq, hpage.chunkSizeBytes_eq]
    | none => rfl
  unfold resolveCloneAllocationPages
  rw [if_neg (by omega), g.invalidGeometry_eq, if_neg Bool.false_ne_true, h.record, ok_bind,
    if_neg (by rcases h.state with hstate | hstate <;> simp [hstate]),
    if_neg (by simp [h.pageBytes_eq, h.chunkSizeBytes_eq])]
  simp only [requestPageNos, Geometry.pageOf, Geometry.chunksPerPage] at hbase hoverlay ⊢
  rw [hbase, ok_bind, hoverlay]
  rfl

end Resolve

end Repository

section Plans

theorem resolveClonePagesForPlan_eq (h : m.CloneReadable g clone) (hlen : 0 < len) :
    resolveClonePagesForPlan m clone.cloneID off len g.pageBytes g.chunkSizeBytes =
      resolvePagesForPlan (m.cloneView g clone) off len g.pageBytes g.chunkSizeBytes := by
  unfold resolveClonePagesForPlan resolvePagesForPlan
  rw [if_pos ⟨g.pageBytes_pos, g.chunkSizeBytes_pos⟩,
    if_pos ⟨g.pageBytes_pos, g.chunkSizeBytes_pos⟩, h.resolveCloneAllocationPages_eq hlen]

theorem planCloneWrite_eq (h : m.CloneReadable g clone) (hlen : 0 < len) :
    planCloneWrite m clone.cloneID off len g.pageBytes g.chunkSizeBytes =
      planWrite (m.cloneView g clone) off len g.pageBytes g.chunkSizeBytes := by
  unfold planCloneWrite planWrite
  rw [resolveClonePagesForPlan_eq h hlen, cloneView, sourceWriteRequiresCopyOnWrite_view]
  rfl

end Plans

end Namrbd
