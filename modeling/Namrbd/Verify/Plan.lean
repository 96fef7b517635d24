import Namrbd.Verify.PlanPages

/-!
# Plans of reads and writes

What a successful plan says: one extent plan for each extent the request
overlaps, in order, with the targets of the extent's replica set and with pages
that show the live chunk map.
-/

namespace Namrbd

open List Repository Result

/-! ## Layout of a volume -/

/-- The extents of a volume lie one after the other from 0 to its size, in the
order of their ids and at chunk boundaries. -/
structure Layout (g : Geometry) (size : Nat) (extents : List ExtentMappingRecord) : Prop where
  tiles : Runs.Tiles (·.logicalOffset) (·.lengthBytes) 0 extents size
  start_dvd : ∀ e ∈ extents, g.chunkSizeBytes ∣ e.logicalOffset
  length_dvd : ∀ e ∈ extents, g.chunkSizeBytes ∣ e.lengthBytes
  sorted : Table.Sorted (·.extentID) extents

namespace Layout

variable {g : Geometry} {size : Nat} {extents : List ExtentMappingRecord}
  {e e' : ExtentMappingRecord}

section

variable (h : Layout g size extents) (he : e ∈ extents)

include h he

theorem aligned : e.Aligned g.chunkSizeBytes :=
  ⟨h.start_dvd e he, h.length_dvd e he, (h.tiles.mem_bounds e he).2.2⟩

theorem eq_of_hasChunk {chunk : Nat} (he' : e' ∈ extents) (hin : e.HasChunk g.chunkSizeBytes chunk)
    (hin' : e'.HasChunk g.chunkSizeBytes chunk) : e = e' := by
  have hcs := g.chunkSizeBytes_pos
  unfold ExtentMappingRecord.HasChunk ExtentMappingRecord.endOffset at hin hin'
  exact h.tiles.eq_of_mem he he' (c := chunk * g.chunkSizeBytes) (by omega) (by omega)

theorem eq_of_extentID (he' : e' ∈ extents) (hid : e.extentID = e'.extentID) : e = e' := by
  have hget := h.sorted.get?_of_mem he
  have hget' := h.sorted.get?_of_mem he'
  rw [hid, hget'] at hget
  exact (Option.some.inj hget).symm

end

end Layout

/-! ## Targets -/

theorem forExtent_eq_ok {α : Type} {extentID : Nat} {x : Except Err α} {a : α}
    (h : forExtent extentID x = .ok a) : x = .ok a := by
  unfold forExtent at h
  split at h
  · cases h
  · exact h

def WriteTargets (nodes : List NodeMembershipRecord) (replicaSet : ReplicaSetState)
    (targets : List ReplicaTarget) : Prop :=
  ∃ primary, buildWriteTargets replicaSet nodes = .ok (primary, targets)

def Repository.IsWriteTarget (m : Repository) (extent : ExtentMappingRecord)
    (replicaID : String) : Prop :=
  ∃ replicaSet targets, m.replicaSetForPlacement extent.placementRef = some replicaSet ∧
    WriteTargets m.nodes replicaSet targets ∧ replicaID ∈ targets.map (·.replicaID)

/-! ## Extent plans -/

def Repository.overlapped (m : Repository) (off len : Nat) : List ExtentMappingRecord :=
  m.extents.filter fun extent => extent.overlaps off len

/-- An extent plan whose pages show the chunk map `entry` and have the revisions `rev`. -/
structure PlanShows (g : Geometry) (rev : Nat → Nat) (entry : Nat → ChunkEntry) (off len : Nat)
    (p : ExtentWritePlan) : Prop where
  chunkSizeBytes_eq : p.chunkSizeBytes = g.chunkSizeBytes
  pages : PlanPages g entry (p.extent.Touched g.chunkSizeBytes off len) p.allocationPages
  revision_eq : ∀ r ∈ p.allocationPages, r.page.revision = rev r.page.pageNo

/-- The plan of a write to one extent, with pages that show the chunk map `entry`.
A copy on write starts from the live map. -/
structure IsWritePlan (g : Geometry) (m : Repository) (entry : Nat → ChunkEntry) (off len : Nat)
    (p : ExtentWritePlan) : Prop extends PlanShows g m.pageRevision entry off len p where
  copyOnWrite_eq : p.copyOnWrite = sourceWriteRequiresCopyOnWrite m
  base : p.copyOnWrite = true →
    PlanPages g (m.liveEntry g) (p.extent.Touched g.chunkSizeBytes off len) p.baseAllocations
  targets : ∃ replicaSet, m.replicaSetForPlacement p.extent.placementRef = some replicaSet ∧
    buildWriteTargets replicaSet m.nodes = .ok (p.primary, p.writeTargets) ∧
    p.requiredAcks = replicaSet.writeQuorum ∧ p.replicaSetEpoch = replicaSet.epoch ∧
    p.replicaSetID = replicaSet.replicaSetID ∧ replicaSet.writeQuorum ≤ p.writeTargets.length

/-- One plan for each extent that the range meets, in order. -/
structure IsWritePlans (g : Geometry) (m : Repository) (entry : Nat → ChunkEntry) (off len : Nat)
    (plan : List ExtentWritePlan) : Prop where
  extents_eq : plan.map (·.extent) = m.overlapped off len
  each : ∀ p ∈ plan, IsWritePlan g m entry off len p

/-- A read plan whose pages show the live map. -/
structure IsReadPlan (g : Geometry) (m : Repository) (off len : Nat) (p : ExtentReadPlan) :
    Prop where
  chunkSizeBytes_eq : p.chunkSizeBytes = g.chunkSizeBytes
  pages : PlanPages g (m.liveEntry g) (p.extent.Meets g.chunkSizeBytes off len)
    p.allocationPages

section Plans

variable {g : Geometry} {m : Repository} {size off len : Nat}

theorem resolvePagesForPlan_live (hwf : m.PagesWF g) (hlen : 0 < len) :
    ∃ pages, resolvePagesForPlan m off len g.pageBytes g.chunkSizeBytes =
        .ok (pages.map (requestPage g off len)) ∧
      Forall₂ (m.IsLivePage g) (requestPageNos g off len) pages := by
  obtain ⟨pages, hpages, hrel⟩ := mapM_ok fun pageNo (_ : pageNo ∈ requestPageNos g off len) =>
    getCompatibleAllocationPage_live hwf pageNo
  refine ⟨pages, ?_, hrel⟩
  rw [resolvePagesForPlan, if_pos ⟨g.pageBytes_pos, g.chunkSizeBytes_pos⟩,
    resolveAllocationPages_eq hlen, hpages, ok_bind]

theorem resolveExtentPlacements_ok (hlen : 0 < len) {placements : List ResolvedExtentPlacement}
    (h : m.resolveExtentPlacements off len = .ok placements) :
    Forall₂ (fun e (p : ResolvedExtentPlacement) => p.extentMapping = e ∧ p.nodes = m.nodes ∧
      m.replicaSetForPlacement e.placementRef = some p.replicaSet) (m.overlapped off len)
      placements := by
  rw [resolveExtentPlacements, if_neg (by omega)] at h
  refine (mapM_eq_ok.mp h).imp fun e p hp => ?_
  unfold resolvedExtentPlacement at hp
  split at hp
  · cases hp
  · next hset =>
    cases hp
    exact ⟨rfl, rfl, hset⟩

variable {plan : List ExtentWritePlan}

theorem aligned_of_overlapped (hlay : Layout g size m.extents) :
    ∀ e ∈ m.overlapped off len, e.Aligned g.chunkSizeBytes :=
  fun _ he => hlay.aligned (mem_of_mem_filter he)

/-- The plan of a write shows the live map in every chunk it touches. -/
theorem planWrite_ok (hwf : m.PagesWF g) (hlay : Layout g size m.extents) (hlen : 0 < len)
    (h : planWrite m off len g.pageBytes g.chunkSizeBytes = .ok plan) :
    IsWritePlans g m (m.liveEntry g) off len plan := by
  obtain ⟨placements, hplaces, h⟩ := bind_eq_ok.mp h
  obtain ⟨resolved, hres, h⟩ := bind_eq_ok.mp h
  obtain ⟨pages, hpages, hlive⟩ := resolvePagesForPlan_live hwf hlen
  rw [hpages] at hres
  cases hres
  have hrel := (forall₂_and_left _ _).mpr ⟨aligned_of_overlapped hlay,
    forall₂_comp (resolveExtentPlacements_ok hlen hplaces) (mapM_eq_ok.mp h)⟩
  have hplan : Forall₂ (fun e p => p.extent = e ∧
      IsWritePlan g m (m.liveEntry g) off len p) (m.overlapped off len) plan := by
    refine hrel.imp ?_
    rintro e p ⟨ha, placement, ⟨rfl, hnodes, hset⟩, hp⟩
    obtain ⟨⟨primary, targets⟩, htargets, hp⟩ := bind_eq_ok.mp hp
    have hbuild := forExtent_eq_ok htargets
    dsimp only at hp
    split at hp
    · cases hp
    next hquorum =>
    cases hp
    refine ⟨rfl, ⟨rfl, (planPages_live hlen hlive ha.length_pos).touched ha, fun r hr => ?_⟩, rfl,
      ?_, placement.replicaSet, hset, ?_, rfl, rfl, rfl, by dsimp only; omega⟩
    · unfold overlapAllocationPagesForExtent at hr
      split at hr
      · cases hr
      obtain ⟨page, hpage, rfl⟩ := mem_map.mp (mem_of_mem_filter hr)
      obtain ⟨n, -, h⟩ := exists_of_mem_right hlive hpage
      exact h.pageNo_eq ▸ h.revision_eq
    · intro hcow
      rw [if_pos hcow]
      exact (planPages_live hlen hlive ha.length_pos).touched ha
    · rw [← hnodes]
      exact hbuild
  refine ⟨map_eq_of_forall₂ (hplan.imp fun _ _ h => h.1), fun p hp => ?_⟩
  obtain ⟨e, -, -, h⟩ := exists_of_mem_right hplan hp
  exact h

theorem planRead_ok (hwf : m.PagesWF g)
    (hpos : ∀ e ∈ m.overlapped off len, 0 < e.lengthBytes) (hlen : 0 < len)
    {plan : List ExtentReadPlan} (h : planRead m off len g.pageBytes g.chunkSizeBytes = .ok plan) :
    plan.map (·.extent) = m.overlapped off len ∧ ∀ p ∈ plan, IsReadPlan g m off len p := by
  obtain ⟨placements, hplaces, h⟩ := bind_eq_ok.mp h
  obtain ⟨resolved, hres, h⟩ := bind_eq_ok.mp h
  obtain ⟨pages, hpages, hlive⟩ := resolvePagesForPlan_live hwf hlen
  rw [hpages] at hres
  cases hres
  have hrel := (forall₂_and_left _ _).mpr ⟨hpos,
    forall₂_comp (resolveExtentPlacements_ok hlen hplaces) (mapM_eq_ok.mp h)⟩
  have hplan : Forall₂ (fun e p => p.extent = e ∧ IsReadPlan g m off len p)
      (m.overlapped off len) plan := by
    refine hrel.imp ?_
    rintro e p ⟨hpos, placement, ⟨rfl, -, -⟩, hp⟩
    obtain ⟨⟨primary, targets⟩, -, hp⟩ := bind_eq_ok.mp hp
    cases hp
    exact ⟨rfl, rfl, planPages_live hlen hlive hpos⟩
  refine ⟨map_eq_of_forall₂ (hplan.imp fun _ _ h => h.1), fun p hp => ?_⟩
  obtain ⟨e, -, -, h⟩ := exists_of_mem_right hplan hp
  exact h

theorem plan_empty {π : Type} {resolved : Except Err (List ResolvedAllocationPage)}
    {build : List ResolvedAllocationPage → ResolvedExtentPlacement → Except Err π} {plan : List π}
    (hlen : len = 0)
    (h : (m.resolveExtentPlacements off len >>= fun placements =>
      resolved >>= fun pages => placements.mapM (build pages)) = .ok plan) : plan = [] := by
  rw [resolveExtentPlacements, if_pos hlen, ok_bind] at h
  obtain ⟨pages, -, h⟩ := bind_eq_ok.mp h
  cases h
  rfl

end Plans

end Namrbd
