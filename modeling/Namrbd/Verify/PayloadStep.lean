import Namrbd.Verify.PayloadWrite
import Namrbd.Replication.WriteService

/-!
# The payload step of an execution

The payload of a write goes to its extents one after the other. Every extent has
objects of its own, so what one extent needs is not disturbed by the others.
-/

namespace Namrbd

open List Window

variable {g : Geometry} {req : WriteRequest} {stores' stores : PayloadStores} {f : Nat → Byte}
  {planned live : Nat → ChunkEntry} {exec' exec : WriteExecution} {extentIndex : Nat}

abbrev ExtentWritePlan.targetIDs (p : ExtentWritePlan) : List String :=
  p.writeTargets.map (·.replicaID)

abbrev WriteExecution.plans (exec : WriteExecution) : List ExtentWritePlan :=
  exec.extents.map (·.plan)

/-- The objects that the plans write, by replica, extent and chunk id. -/
def PlanKeys (g : Geometry) (planned : Nat → ChunkEntry) (req : WriteRequest)
    (plans : List ExtentWritePlan) (r : String) (e k : Nat) : Prop :=
  ∃ p ∈ plans, r ∈ p.targetIDs ∧ e = p.extent.extentID ∧
    ∃ c ∈ writtenChunks g req p.extent, k = (planned c).physicalChunkID

/-- Every plan stored its chunks with the contents of `f`, and nothing else changed. -/
structure StoredPlans (g : Geometry) (planned : Nat → ChunkEntry) (req : WriteRequest)
    (f : Nat → Byte) (plans : List ExtentWritePlan) (stores stores' : PayloadStores) : Prop where
  found : ∀ p ∈ plans, ∀ r ∈ p.targetIDs, ∀ c ∈ writtenChunks g req p.extent,
    stores'.payload r p.extent.extentID (planned c).physicalChunkID =
      some (WriterPlan.content g f c)
  frame : ChangedOnly (PlanKeys g planned req plans) stores stores'

/-- The execution has moved on with the same plans. -/
def SamePlans (exec exec' : WriteExecution) : Prop :=
  ∃ state extents, exec' = { exec with state := state, extents := extents } ∧
    extents.map (·.plan) = exec.plans

theorem SamePlans.refl (exec : WriteExecution) : SamePlans exec exec :=
  ⟨exec.state, exec.extents, rfl, rfl⟩

variable {i : Nat} {b : Byte}

theorem SamePlans.trans {exec'' : WriteExecution} (h : SamePlans exec exec')
    (h' : SamePlans exec' exec'') : SamePlans exec exec'' := by
  obtain ⟨state, extents, rfl, hplans⟩ := h
  obtain ⟨state', extents', rfl, hplans'⟩ := h'
  exact ⟨state', extents', rfl, hplans'.trans hplans⟩

theorem samePlans_markReplicaAcks (exec : WriteExecution) (extentIndex : Nat)
    (requirePrimaryAck : Bool) (replicaIDs : List String) :
    SamePlans exec (exec.markReplicaAcks extentIndex requirePrimaryAck replicaIDs) := by
  have hplans : (exec.extents.modify extentIndex fun status =>
      replicaIDs.foldl (·.markReplicaAck requirePrimaryAck ·) status).map (·.plan) =
      exec.extents.map (·.plan) := by
    apply ext_getElem?
    intro i
    rw [getElem?_map, getElem?_map, getElem?_modify]
    cases exec.extents[i]? with
    | none => rfl
    | some status =>
      simp only [Option.map_eq_map, Option.map_some]
      split
      · exact congrArg some (foldlRecOn (motive := fun s : ExtentWriteStatus =>
          s.plan = status.plan) _ _ rfl fun _ hplan _ _ => hplan)
      · rfl
  unfold WriteExecution.markReplicaAcks
  dsimp only
  split
  · exact ⟨_, _, rfl, hplans⟩
  · exact ⟨_, _, rfl, hplans⟩

theorem samePlans_writePayloadFrom {faults : StoreFaults} {plans : List ExtentWritePlan}
    (h : writePayloadFrom faults req plans extentIndex exec stores = (.ok exec', stores')) :
    SamePlans exec exec' := by
  induction plans generalizing extentIndex exec stores with
  | nil =>
    cases h
    exact .refl _
  | cons plan plans ih =>
    rw [writePayloadFrom] at h
    split at h
    · cases h
    next acked stores1 _ =>
    dsimp only at h
    split at h
    · cases h
    split at h
    · exact (samePlans_markReplicaAcks exec extentIndex true acked).trans (ih h)
    · cases h

section Step

/-- The writer can follow the plans: each one is sound, and its sources show `f` outside the
payload. -/
structure PlansReady (g : Geometry) (live planned : Nat → ChunkEntry) (req : WriteRequest)
    (f : Nat → Byte) (plans : List ExtentWritePlan) (stores : PayloadStores) : Prop where
  each : ∀ p ∈ plans, WriterPlan g live planned req p ∧ WriterPlan.Separate g live planned req p
  ready : ∀ p ∈ plans, ∀ r ∈ p.targetIDs, ∀ c ∈ writtenChunks g req p.extent,
    WriterPlan.Ready g live planned req p f stores r c
  ids : plans.Pairwise fun p p' => p.extent.extentID ≠ p'.extent.extentID

variable {plans : List ExtentWritePlan}

/-- A payload that is stored shows the array in every touched chunk. -/
theorem writePayloadFrom_ok
    (hdata : ∀ i b, i < req.lengthBytes → req.data[i]? = some b → f (req.offsetBytes + i) = b)
    (hready : PlansReady g live planned req f plans stores)
    (h : writePayloadFrom .reliable req plans extentIndex exec stores = (.ok exec', stores')) :
    StoredPlans g planned req f plans stores stores' ∧ SamePlans exec exec' := by
  induction plans generalizing extentIndex exec stores with
  | nil =>
    cases h
    exact ⟨⟨fun _ hp => (not_mem_nil hp).elim, .refl _ _⟩, .refl _⟩
  | cons p plans ih =>
    rw [writePayloadFrom] at h
    split at h
    · cases h
    next acked stores1 hwrite =>
    obtain ⟨hp, hsep⟩ := hready.each p mem_cons_self
    unfold writeExtent at hwrite
    rw [overlapRange_of_overlaps hp.overlaps] at hwrite
    cases hpay : payloadForExtent p req with
    | error err => rw [hpay] at hwrite; cases hwrite
    | ok payload =>
    rw [hpay] at hwrite
    have hstored := hp.writeTargets_ok hsep (hp.payloadForExtent_fits hdata hpay)
      (hready.ready p mem_cons_self) hwrite
    dsimp only at h
    split at h
    · cases h
    split at h
    · obtain ⟨hids, htail⟩ := pairwise_cons.mp hready.ids
      obtain ⟨hrest, hsame⟩ := ih
        { each := fun q hq => hready.each q (mem_cons_of_mem p hq)
          ready := fun q hq r hr c hc => by
            -- another extent's payloads are as they were
            obtain ⟨b, hpay, hout⟩ := hready.ready q (mem_cons_of_mem p hq) r hr c hc
            refine ⟨b, ?_, hout⟩
            rw [hstored.frame.payload_eq _ _ _ fun hkey => hids q hq hkey.2.1.symm]
            exact hpay
          ids := htail } h
      refine ⟨⟨?_, ?_⟩, (samePlans_markReplicaAcks exec extentIndex true acked).trans hsame⟩
      · intro q hq r hr c hc
        rcases mem_cons.mp hq with rfl | hq
        · -- the plans after it have other extents
          rw [hrest.frame.payload_eq]
          · exact hstored.found r hr c hc
          · rintro ⟨q', hq', -, hid, -⟩
            exact hids q' hq' hid
        · exact hrest.found q hq r hr c hc
      · refine (hstored.frame.mono ?_).trans (hrest.frame.mono ?_)
        · rintro r e k ⟨hr, he, c, hc, hk⟩
          exact ⟨p, mem_cons_self, hr, he, c, hc, hk⟩
        · rintro r e k ⟨q, hq, hkey⟩
          exact ⟨q, mem_cons_of_mem p hq, hkey⟩
    · cases h

end Step

/-! ## The bytes of a request -/

/-- The bytes that a request asks for. -/
def WriteRequest.bytes (req : WriteRequest) : List Byte :=
  if req.zeroSemantic then List.replicate req.lengthBytes 0 else req.data.take req.lengthBytes

theorem WriteRequest.length_bytes_le (req : WriteRequest) : req.bytes.length ≤ req.lengthBytes := by
  unfold WriteRequest.bytes
  split
  · exact length_replicate.le
  · exact length_take_le _ _

def WriteRequest.ZeroData (req : WriteRequest) : Prop :=
  req.zeroSemantic = true → ∀ b ∈ req.data, b = 0

theorem getElem?_bytes_of_replicaData (exec : WriteExecution) (hzero : req.ZeroData)
    (hi : i < req.lengthBytes) (hget : (replicaData exec req)[i]? = some b) :
    req.bytes[i]? = some b := by
  unfold WriteRequest.bytes
  unfold replicaData at hget
  by_cases hzs : req.zeroSemantic = true
  · rw [if_pos hzs, getElem?_replicate, if_pos hi]
    split at hget
    · rw [getElem?_replicate, if_pos hi] at hget
      exact hget
    · rw [hzero hzs b (mem_of_getElem? hget)]
  · rw [if_neg hzs, getElem?_take, if_pos hi]
    rw [if_neg (by simp [hzs])] at hget
    exact hget

theorem writePayload_ok (hzero : req.ZeroData)
    (hready : PlansReady g live planned req (patch f req.offsetBytes req.bytes)
      exec.plans stores) (h : writePayload .reliable exec req stores = (.ok exec', stores')) :
    StoredPlans g planned req (patch f req.offsetBytes req.bytes)
      exec.plans stores stores' ∧ SamePlans exec exec' := by
  -- the data does not matter for which chunks are written
  have hready' : PlansReady g live planned { req with data := replicaData exec req }
      (patch f req.offsetBytes req.bytes) exec.plans stores :=
    ⟨fun p hp => ⟨{ (hready.each p hp).1 with }, (hready.each p hp).2⟩, hready.ready, hready.ids⟩
  have hdata : ∀ i b, i < req.lengthBytes → (replicaData exec req)[i]? = some b →
      patch f req.offsetBytes req.bytes (req.offsetBytes + i) = b := by
    intro i b hi hget
    refine patch_of_mem (Nat.le_add_right _ _) ?_
    rw [Nat.add_sub_cancel_left]
    exact getElem?_bytes_of_replicaData exec hzero hi hget
  obtain ⟨⟨hfound, hframe⟩, hsame⟩ := writePayloadFrom_ok hdata hready' h
  exact ⟨⟨hfound, hframe⟩, hsame⟩

end Namrbd
