import Namrbd.Verify.InFlight
import Namrbd.Verify.FlatVolume

/-!
# Concurrent writes

Calls of the write service take their actions in any order. The invariant of such a run
(`Sound`) has a flat array that every state stands for: the payload of a call appears in
it in place when it is stored, and where chunks are remapped when it is committed. A call
begins only while it shares no chunk with a call in flight (`MayBegin`), so that no two
calls lose each other's bytes.
-/

namespace Namrbd

open Function Reserved Table

/-- The execution that a call has under way. -/
def Phase.execution : Phase → Option WriteExecution
  | .begun exec => some exec
  | .paid exec => some exec
  | .prepared exec _ => some exec
  | .conflicted exec => some exec
  | _ => none

/-- A call that can not succeed any more: it has failed, or it has nothing to commit. -/
def Phase.Doomed : Phase → Prop
  | .idle => False
  | .begun exec => exec.extents = []
  | .paid exec => exec.extents = []
  | .prepared exec _ => exec.extents = []
  | .conflicted exec => exec.extents = []
  | .done => False
  | .failing _ _ => True
  | .failed => True

/-- The requests of calls that may run at the same time. -/
structure Compatible {ι : Type} (g : Geometry) (req : ι → WriteRequest) : Prop where
  geometry : ∀ i, (req i).HasGeometry g
  zeroData : ∀ i, (req i).ZeroData
  keys : ∀ i j, i ≠ j → (req i).idempotencyKey ≠ (req j).idempotencyKey
  disjoint : ∀ i j, i ≠ j → (req i).DisjointFrom (req j)

/-- What holds of a call in each of its phases. -/
def CallSound (g : Geometry) (cfg : ExecutorConfig) (m : Repository) (stores : PayloadStores)
    (f : Nat → Byte) (req : WriteRequest) (live planned : Nat → ChunkEntry) : Phase → Prop
  | .idle => Table.get? (·.idempotencyKey) req.idempotencyKey m.idempotency = none
  | .begun exec => InFlight g cfg m req live planned exec.plans ∧ ExecutionOf req exec ∧
      (∀ p ∈ exec.plans, WriterPlan g live planned req p) ∧
      Unpaid g req live planned exec.plans stores
  | .paid exec => InFlight g cfg m req live planned exec.plans ∧ ExecutionOf req exec ∧
      PaidFor g req live planned exec.plans f stores
  | .prepared exec alloc => InFlight g cfg m req live planned exec.plans ∧
      ExecutionOf req exec ∧ PaidFor g req live planned exec.plans f stores ∧
      prepareAllocationCommit exec req = .ok alloc
  | .conflicted exec => InFlight g cfg m req live planned exec.plans ∧ ExecutionOf req exec ∧
      PaidFor g req live planned exec.plans f stores
  | .done => ∀ i, Window.patch f req.offsetBytes req.bytes i = f i
  | .failing _ _ => False
  | .failed => False

/-- Calls that are under way do not disturb each other. -/
def CallsApart {ι : Type} (g : Geometry) (req : ι → WriteRequest)
    (live planned : ι → Nat → ChunkEntry) (phase : ι → Phase) : Prop :=
  ∀ i j, i ≠ j → ∀ exec exec', (phase i).execution = some exec → (phase j).execution = some exec' →
    Apart g (req i) (req j) (live i) (planned i) (planned j) exec.plans exec'.plans

/-- The invariant of calls that run together on a volume that stood for `f₀`. -/
structure Sound {ι : Type} (g : Geometry) (size : Nat) (cfg : ExecutorConfig)
    (req : ι → WriteRequest) (f₀ : Nat → Byte) (c : Cluster) (phase : ι → Phase) (f : Nat → Byte)
    (live planned : ι → Nat → ChunkEntry) : Prop where
  represents : Represents g size c.repository c.stores f
  native : c.repository.pages = [] → ∀ k, (c.repository.liveEntry g k).physicalChunkID = 0
  call : ∀ i, CallSound g cfg c.repository c.stores f (req i) (live i) (planned i) (phase i)
  apart : CallsApart g req live planned phase
  outside : ∀ k, (∀ i, ¬(req i).Writes k) → f k = f₀ k

section Frame

variable {g : Geometry} {cfg : ExecutorConfig} {m m' : Repository} {stores stores' : PayloadStores}
  {f f' : Nat → Byte} {req : WriteRequest} {live planned : Nat → ChunkEntry} {phase : Phase}

theorem CallSound.inFlight (h : CallSound g cfg m stores f req live planned phase)
    {exec : WriteExecution} (hexec : phase.execution = some exec) :
    InFlight g cfg m req live planned exec.plans := by
  cases phase with
  | begun _ | paid _ | prepared _ _ | conflicted _ => cases hexec; exact h.1
  | _ => cases hexec

theorem CallSound.frame (h : CallSound g cfg m stores f req live planned phase)
    (hkey : get? (·.idempotencyKey) req.idempotencyKey m'.idempotency =
      get? (·.idempotencyKey) req.idempotencyKey m.idempotency)
    (hflight : ∀ exec, phase.execution = some exec → InFlight g cfg m' req live planned exec.plans)
    (hstores : ∀ exec, phase.execution = some exec → ∀ p ∈ exec.plans,
      ∀ c ∈ writtenChunks g req p.extent, Remaps live planned c → ∀ r,
        stores'.payload r p.extent.extentID (planned c).physicalChunkID =
          stores.payload r p.extent.extentID (planned c).physicalChunkID)
    (hwrites : ∀ i, req.Writes i → f' i = f i)
    (hremapped : ∀ exec, phase.execution = some exec → ∀ p ∈ exec.plans,
      ∀ c ∈ writtenChunks g req p.extent, Remaps live planned c → ∀ i,
        c * g.chunkSizeBytes ≤ i → i < c * g.chunkSizeBytes + g.chunkSizeBytes → f' i = f i) :
    CallSound g cfg m' stores' f' req live planned phase := by
  have hpaid : ∀ exec, phase.execution = some exec → PaidFor g req live planned exec.plans f stores →
      PaidFor g req live planned exec.plans f' stores' := by
    intro exec hexec hpaid
    refine ⟨fun p hp c hc hre r hr => ?_, fun c hc i hlo hhi =>
      patch_eq_self_congr (hwrites i) (hpaid.place c hc i hlo hhi)⟩
    rw [hstores exec hexec p hp c hc hre r, hpaid.paid p hp c hc hre r hr]
    refine congrArg some (Window.window_congr fun i hlo hhi => ?_)
    by_cases hi : req.Writes i
    · exact patch_congr_writes hi f' f
    · rw [patch_of_not_writes hi, patch_of_not_writes hi, hremapped exec hexec p hp c hc hre i hlo hhi]
  cases phase with
  | idle => exact hkey.trans h
  | begun exec =>
    exact ⟨hflight exec rfl, h.2.1, h.2.2.1, fun p hp c hc hre r =>
      (hstores exec rfl p hp c hc hre r).trans (h.2.2.2 p hp c hc hre r)⟩
  | paid exec | conflicted exec => exact ⟨hflight exec rfl, h.2.1, hpaid exec rfl h.2.2⟩
  | prepared exec alloc => exact ⟨hflight exec rfl, h.2.1, hpaid exec rfl h.2.2.1, h.2.2.2⟩
  | done => exact fun i => patch_eq_self_congr (hwrites i) (h i)
  | failing _ _ | failed => exact h

end Frame

theorem CallsApart.update {ι : Type} [DecidableEq ι] {g : Geometry} {req : ι → WriteRequest}
    {live planned live' planned' : ι → Nat → ChunkEntry} {phase : ι → Phase}
    (h : CallsApart g req live planned phase) (i : ι) (ph : Phase)
    (hlive : ∀ j, j ≠ i → live' j = live j) (hplan : ∀ j, j ≠ i → planned' j = planned j)
    (hnew : ∀ exec, ph.execution = some exec → ∀ j, j ≠ i → ∀ exec',
      (phase j).execution = some exec' →
        Apart g (req i) (req j) (live' i) (planned' i) (planned j) exec.plans exec'.plans ∧
        Apart g (req j) (req i) (live j) (planned j) (planned' i) exec'.plans exec.plans) :
    CallsApart g req live' planned' (update phase i ph) := by
  intro j k hjk exec exec' hexec hexec'
  by_cases hj : j = i
  · subst hj
    rw [update_self] at hexec
    rw [update_of_ne (Ne.symm hjk)] at hexec'
    rw [hplan k (Ne.symm hjk)]
    exact (hnew exec hexec k (Ne.symm hjk) exec' hexec').1
  · rw [update_of_ne hj] at hexec
    rw [hlive j hj, hplan j hj]
    by_cases hk : k = i
    · subst hk
      rw [update_self] at hexec'
      exact (hnew exec' hexec' j hj exec hexec).2
    · rw [update_of_ne hk] at hexec'
      rw [hplan k hk]
      exact h j k hjk exec exec' hexec hexec'

/-! ## One action -/

/-- The call may begin: it shares no chunk with a call in flight. Two calls in one chunk lose
bytes even where it is mapped, for a replica reads and puts its object without a lock. -/
def MayBegin {ι : Type} (g : Geometry) (req : ι → WriteRequest) (s : Calls ι) (i : ι) : Prop :=
  ∀ j, j ≠ i → (s.phase j).execution.isSome → ∀ e ∈ s.cluster.repository.extents, ∀ k,
    e.Touched g.chunkSizeBytes (req i).offsetBytes (req i).lengthBytes k →
    ¬e.Touched g.chunkSizeBytes (req j).offsetBytes (req j).lengthBytes k

/-- The call may rebase: the chunks it covers with zeros are unmapped, unless commits replace
whole pages. -/
def MayRebase {ι : Type} (g : Geometry) (cfg : ExecutorConfig) (req : ι → WriteRequest)
    (s : Calls ι) (i : ι) : Prop :=
  cfg.replacesPages = true ∨ ∀ e ∈ s.cluster.repository.extents, ∀ k,
    e.Touched g.chunkSizeBytes (req i).offsetBytes (req i).lengthBytes k →
      (req i).skips g k = true → (s.cluster.repository.liveEntry g k).physicalChunkID = 0

section Steps

variable {ι : Type} [DecidableEq ι] {g : Geometry} {size : Nat} {cfg : ExecutorConfig}
  {req : ι → WriteRequest} {f₀ f : Nat → Byte} {c : Cluster} {phase : ι → Phase}
  {live planned : ι → Nat → ChunkEntry} {i : ι}

/-- A step of one call that leaves its maps as they are. -/
theorem Sound.update (h : Sound g size cfg req f₀ c phase f live planned) (c' : Cluster)
    (ph : Phase) (f' : Nat → Byte) (hrep : Represents g size c'.repository c'.stores f')
    (hnat : c'.repository.pages = [] → ∀ k, (c'.repository.liveEntry g k).physicalChunkID = 0)
    (hself : CallSound g cfg c'.repository c'.stores f' (req i) (live i) (planned i) ph)
    (hothers : ∀ j, j ≠ i → CallSound g cfg c'.repository c'.stores f' (req j) (live j)
      (planned j) (phase j))
    (hplans : ∀ exec, ph.execution = some exec → ∃ exec0, (phase i).execution = some exec0 ∧
      (exec.plans = exec0.plans ∨ List.Forall₂ (RebasedPlan g c.repository (req i) (planned i))
        exec0.plans exec.plans)) (hwrites : ∀ k, ¬(req i).Writes k → f' k = f k) :
    Sound g size cfg req f₀ c' (update phase i ph) f' live planned := by
  refine ⟨hrep, hnat, fun j => ?_, h.apart.update i ph (fun _ _ => rfl) (fun _ _ => rfl) ?_,
    fun k hk => (hwrites k (hk i)).trans (h.outside k hk)⟩
  · by_cases hj : j = i
    · subst hj
      rw [update_self]
      exact hself
    · rw [update_of_ne hj]
      exact hothers j hj
  · intro exec hexec j hj exec' hexec'
    obtain ⟨exec0, hexec0, hrel⟩ := hplans exec hexec
    have hleft := h.apart i j (Ne.symm hj) exec0 exec' hexec0 hexec'
    have hright := h.apart j i hj exec' exec0 hexec' hexec0
    rcases hrel with heq | hreb
    · rw [heq]
      exact ⟨hleft, hright⟩
    · exact ⟨hleft.rebase_left hreb, hright.rebase_right hreb⟩

/-- A plan with fresh ids stays apart from a reservation that shares no chunk with it. -/
theorem apart_of_fresh {m : Repository} {r r' : WriteRequest} {live' planned' : Nat → ChunkEntry}
    {plans plans' : List ExtentWritePlan} (hplans : ∀ p ∈ plans, ChunkPlan g (plannedMap g m r) r p)
    (hother : Reserved g m r' live' planned' plans')
    (hshared : ∀ p ∈ plans, ∀ q ∈ plans', ∀ k,
      p.extent.Touched g.chunkSizeBytes r.offsetBytes r.lengthBytes k →
      ¬q.extent.Touched g.chunkSizeBytes r'.offsetBytes r'.lengthBytes k) :
    Apart g r r' (m.liveEntry g) (plannedMap g m r) planned' plans plans' ∧
      Apart g r' r live' planned' (plannedMap g m r) plans' plans := by
  refine ⟨⟨fun p hp k hk hre q hq hk' => ?_, fun p hp k hk hre q hq k' hk' heq => ?_⟩,
    ⟨fun q hq k hk hre p hp hk' => ?_, fun q hq k hk hre p hp k' hk' heq => ?_⟩⟩
  · exact hshared p hp q hq k ((hplans p hp).mem_writtenChunks.mp hk).1 hk'
  · have hge := plannedMap_ge (mem_freshChunks_of_remaps hre)
    rw [← heq] at hge
    exact absurd (hother.lt_next q hq k' hk') (Nat.not_lt.mpr hge)
  · exact hshared p hp q hq k hk' ((hother.each q hq).mem_writtenChunks.mp hk).1
  · by_cases hfresh : k' ∈ freshChunks g m r
    · have hge := plannedMap_ge hfresh
      rw [heq] at hge
      exact absurd (hother.lt_next q hq k hk) (Nat.not_lt.mpr hge)
    · rw [plannedMap, plannedEntry_of_notMem hfresh] at heq
      exact hother.unmapped q hq k hk hre k' heq

variable {exec exec' : WriteExecution} {ph : Phase} {a : Action} {c' : Cluster}

section

variable (hreq : Compatible g req) (h : Sound g size cfg req f₀ c phase f live planned)

include hreq h

theorem Sound.begin (hphase : phase i = .idle) (hmay : MayBegin g req ⟨c, phase⟩ i)
    {m' : Repository} (hbegin : beginWrite cfg c.repository (req i) = .ok (.execution exec, m'))
    (hne : exec.extents ≠ []) :
    Sound g size cfg req f₀ { c with repository := m' } (Function.update phase i (.begun exec)) f
      (Function.update live i (c.repository.liveEntry g))
      (Function.update planned i (plannedMap g c.repository (req i))) := by
  have hrep := h.represents
  have hidle := h.call i
  rw [hphase] at hidle
  obtain ⟨state, plan, plan', m1, missing, idempotency, operations, hplanned, rfl, rfl, hkeys,
    hintent⟩ := (begun_of_beginWrite hbegin).execution_cases
  have hplan : (newWriteExecution plan' (req i) state missing).plans = plan' :=
    plans_newWriteExecution plan' state missing
  have hplanNe : plan' ≠ [] := by
    intro hnil
    rw [← hplan] at hnil
    exact hne (List.map_eq_nil_iff.mp hnil)
  have hlen := hplanned.length_pos hplanNe
  have huncommitted : Uncommitted { m1 with idempotency, operations } (req i).idempotencyKey := by
    intro record hget
    rcases hintent with ⟨record', hget', hpend⟩ | ⟨-, -, -, hsame⟩
    · rw [Option.some.inj (hget.symm.trans hget'), hpend]
      exact IdempotencyResultState.noConfusion
    · rw [hsame] at hget
      rw [show get? _ _ _ = _ from hidle] at hget
      cases hget
  obtain ⟨hflight, hwriter, hunpaid⟩ :=
    hplanned.inFlight cfg (hreq.geometry i) hrep hplanNe huncommitted
  obtain ⟨-, hplans⟩ := hplanned.isWritePlans hrep (hreq.geometry i) hlen
  obtain ⟨next, rfl, hnext⟩ := prepareWritePlanAllocations_same hplanned.prepared
  refine ⟨hrep.of_same rfl rfl rfl rfl hnext, h.native, fun j => ?_, h.apart.update i _
    (fun j hj => update_of_ne hj _ _) (fun j hj => update_of_ne hj _ _) ?_,
    h.outside⟩
  · by_cases hj : j = i
    · subst hj
      rw [update_self, update_self, update_self]
      refine ⟨?_, ⟨rfl, ⟨_, rfl, rfl, rfl⟩⟩, ?_, ?_⟩
      · rw [hplan]
        exact hflight
      · rw [hplan]
        exact hwriter
      · rw [hplan]
        exact hunpaid
    · rw [update_of_ne hj, update_of_ne hj, update_of_ne hj]
      have hkey := hkeys _ (hreq.keys j i hj)
      exact (h.call j).frame hkey
        (fun exec hexec => ((h.call j).inFlight hexec).of_begin next idempotency operations hnext
          hkey) (fun _ _ _ _ _ _ _ _ => rfl) (fun _ _ => rfl) (fun _ _ _ _ _ _ _ _ _ _ => rfl)
  · intro exec hexec j hj exec' hexec'
    cases hexec
    rw [hplan, update_self, update_self]
    have hother := (h.call j).inFlight hexec'
    refine apart_of_fresh hflight.reserved.each hother.reserved fun p hp q hq k hk hk' => ?_
    have he : p.extent ∈ c.repository.extents :=
      (mem_overlapped.mp (hplans.extents_eq ▸ List.mem_map_of_mem hp)).1
    obtain ⟨e', he', hsame⟩ := hother.reserved.exists_extent hq
    have hk2 := hsame.touched_iff.mpr hk'
    obtain heq := hrep.layout.eq_of_hasChunk he he' hk.2 hk2.2
    exact hmay j hj (by rw [hexec']; rfl) p.extent he k hk (heq ▸ hk2)

/-- A call that ends at its begin asks for zeros where there are zeros. -/
theorem Sound.noop {revision : Nat} {m' : Repository}
    (hbegin : beginWrite cfg c.repository (req i) = .ok (.noop revision, m')) :
    Sound g size cfg req f₀ { c with repository := m' } (Function.update phase i .done)
      (Window.patch f (req i).offsetBytes (req i).bytes) live planned := by
  have hrep := h.represents
  obtain ⟨state, plan, hplan, hnoop, idempotency, hm', hkeys⟩ :
      ∃ state plan, planRequest c.repository (req i) = .ok plan ∧
        writePlanIsZeroNoop plan (req i) = true ∧ ∃ idempotency,
        m' = { c.repository with idempotency } ∧
        ∀ key, key ≠ (req i).idempotencyKey → get? (·.idempotencyKey) key idempotency =
          get? (·.idempotencyKey) key c.repository.idempotency := by
    cases begun_of_beginWrite hbegin with
    | noop state plan _ hvol hplan hnoop hrecs =>
      rcases hrecs with rfl | rfl
      · exact ⟨state, plan, hplan, hnoop, _, rfl, fun _ _ => rfl⟩
      refine ⟨state, plan, hplan, hnoop, _, rfl, fun key hkey => ?_⟩
      have hne : (writeIdempotencyRecord state (req i) .committed).idempotencyKey ≠ key :=
        Ne.symm hkey
      exact get?_put_of_ne hne c.repository.idempotency
  subst hm'
  have hsame : ∀ e ∈ c.repository.extents, ∀ k, e.HasChunk g.chunkSizeBytes k → ∀ x,
      k * g.chunkSizeBytes ≤ x → x < k * g.chunkSizeBytes + g.chunkSizeBytes →
        Window.patch f (req i).offsetBytes (req i).bytes x = f x :=
    fun e he k hk x hlo hhi =>
      patch_eq_of_zeroNoop hrep (hreq.geometry i) hplan hnoop he hk hlo hhi
  refine h.update _ .done _ ((hrep.congr_array hsame).of_same rfl rfl rfl rfl le_rfl) h.native
    (fun x => ?_) (fun j hj => ?_) (fun _ hexec => (by cases hexec))
    (fun k hk => patch_of_not_writes hk f)
  · by_cases hx : (req i).Writes x
    · exact patch_congr_writes hx _ _
    · exact patch_of_not_writes hx _
  refine (h.call j).frame (hkeys _ (hreq.keys j i hj))
    (fun exec hexec => ((h.call j).inFlight hexec).of_begin c.repository.nextChunkID idempotency
      c.repository.operations le_rfl (hkeys _ (hreq.keys j i hj)))
    (fun _ _ _ _ _ _ _ _ => rfl)
    (fun x hx => patch_of_not_writes ((hreq.disjoint i j (Ne.symm hj)).not_writes hx) f) ?_
  intro exec hexec p hp k hk hre x hlo hhi
  have hresv := ((h.call j).inFlight hexec).reserved
  obtain ⟨e, he, hext⟩ := hresv.exists_extent hp
  exact hsame e he k
    (hext.hasChunk_iff.mpr ((hresv.each p hp).mem_writtenChunks.mp hk).1.2) x hlo hhi

/-- The payload appears in the array where it is written in place. -/
theorem Sound.pay (hphase : phase i = .begun exec) {stores : PayloadStores}
    (hpay : writePayload .reliable exec (req i) c.stores = (.ok exec', stores)) :
    Sound g size cfg req f₀ { c with stores } (Function.update phase i (.paid exec'))
      (paidArray g (req i) (live i) (planned i) exec.plans f) live planned := by
  have hrep := h.represents
  have hself := h.call i
  rw [hphase] at hself
  obtain ⟨hflight, hexec, hwriter, hunpaid⟩ := hself
  have hready := hflight.reserved.plansReady hwriter hrep hunpaid
  obtain ⟨hstored, hsame⟩ := writePayload_ok (hreq.zeroData i) hready hpay
  obtain ⟨hrep', hpaid⟩ := hflight.reserved.payload_represents hrep hstored
  have hplans := hsame.plans_eq
  -- the array changes where the request writes, and where chunks are overwritten in place
  have hwrites : ∀ k, ¬(req i).Writes k →
      paidArray g (req i) (live i) (planned i) exec.plans f k = f k := by
    intro k hk
    rw [paidArray, patch_of_not_writes hk f, ite_self]
  refine h.update _ (.paid exec') _ hrep' h.native ⟨?_, hexec.of_samePlans hsame, ?_, ?_⟩
    (fun j hj => ?_) (fun exec'' hexec'' => ?_) hwrites
  · rw [hplans]
    exact hflight
  · rw [hplans, patch_paidArray]
    exact hpaid
  · intro k hk x hlo hhi
    rw [hplans] at hk
    rw [patch_paidArray, paidArray_of_inPlace hk hlo hhi]
  · have hexec : (phase i).execution = some exec := by rw [hphase]; rfl
    have hapart := fun exec' hexec' => h.apart j i hj exec' exec hexec' hexec
    refine (h.call j).frame rfl (fun exec' hexec' => (h.call j).inFlight hexec')
      (fun exec' hexec' p hp k hk hre r => hstored.frame.payload_eq _ _ _ ?_)
      (fun x hx => hwrites x ((hreq.disjoint i j (Ne.symm hj)).not_writes hx)) ?_
    · rintro ⟨q, hq, -, -, k', hk', heq⟩
      exact (hapart exec' hexec').ids p hp k hk hre q hq k' hk' heq.symm
    intro exec' hexec' p hp k hk hre x hlo hhi
    refine paidArray_of_not_inPlace ?_ hlo hhi
    rintro ⟨⟨q, hq, hw⟩, -⟩
    exact (hapart exec' hexec').untouched p hp k hk hre q hq
      ((hflight.reserved.each q hq).mem_writtenChunks.mp hw).1
  · cases hexec''
    exact ⟨exec, by rw [hphase]; rfl, .inl hplans⟩

end

theorem Sound.rephase (h : Sound g size cfg req f₀ c phase f live planned) (c' : Cluster)
    (hrepo : c'.repository = c.repository) (hstores : c'.stores = c.stores)
    (hself : CallSound g cfg c.repository c.stores f (req i) (live i) (planned i) ph)
    (hplans : ∀ exec, ph.execution = some exec → ∃ exec0, (phase i).execution = some exec0 ∧
      (exec.plans = exec0.plans ∨ List.Forall₂ (RebasedPlan g c.repository (req i) (planned i))
        exec0.plans exec.plans)) :
    Sound g size cfg req f₀ c' (Function.update phase i ph) f live planned := by
  refine h.update c' ph f ?_ ?_ ?_ (fun j hj => ?_) hplans (fun _ _ => rfl)
  · rw [hrepo, hstores]
    exact h.represents
  · rw [hrepo]
    exact h.native
  · rw [hrepo, hstores]
    exact hself
  · rw [hrepo, hstores]
    exact h.call j

theorem Sound.rebase (h : Sound g size cfg req f₀ c phase f live planned)
    (hphase : phase i = .conflicted exec) (hmay : MayRebase g cfg req ⟨c, phase⟩ i)
    (hrebase : rebaseWritePlanForRetry c.repository exec (req i) = .ok exec') :
    Sound g size cfg req f₀ c (Function.update phase i (.paid exec')) f live planned := by
  have hself := h.call i
  rw [hphase] at hself
  obtain ⟨hflight, hexec, hpaid⟩ := hself
  have hcovered : cfg.replacesPages = true ∨ ∀ p ∈ exec.plans, ∀ k,
      p.extent.Touched g.chunkSizeBytes (req i).offsetBytes (req i).lengthBytes k →
        (req i).skips g k = true → (c.repository.liveEntry g k).physicalChunkID = 0 := by
    refine hmay.imp_right fun hzero p hp k hk hskip => ?_
    obtain ⟨e, he, hsame⟩ := hflight.reserved.exists_extent hp
    exact hzero e he k (hsame.touched_iff.mpr hk) hskip
  obtain ⟨hreb, hflight', hexec'⟩ := hflight.rebase hexec h.represents hcovered hrebase
  refine h.rephase c rfl rfl ⟨hflight', hexec', hpaid.rebase hreb⟩ fun exec'' hexec'' => ?_
  cases hexec''
  exact ⟨exec, by rw [hphase]; rfl, .inr hreb⟩

/-- A commit keeps the flat array of all calls. -/
theorem Sound.commit (hasync : cfg.asyncWriteEffects = false) (hreq : Compatible g req)
    (h : Sound g size cfg req f₀ c phase f live planned) {alloc : AllocationCommit}
    (hphase : phase i = .prepared exec alloc) {now : Nat} {result : Except Err Nat}
    {outcome : CommitOutcome}
    (hcommit : commitMetadata cfg now c.repository exec alloc = (result, outcome)) :
    (∃ err, result = .error err ∧ outcome.repository = c.repository) ∨
      (∃ revision, result = .ok revision) ∧
        Sound g size cfg req f₀ (c.afterCommit outcome) (Function.update phase i .done)
          (Window.patch f (req i).offsetBytes (req i).bytes) live planned := by
  have hrep := h.represents
  have hself := h.call i
  rw [hphase] at hself
  obtain ⟨hflight, hexec, hpaid, hprep⟩ := hself
  have hcommittable := hflight.committable hexec hprep
  have huncommitted : Uncommitted c.repository exec.idempotencyKey := by
    rw [hexec.key_eq]
    exact hflight.uncommitted
  rcases commitMetadata_cases hasync now hrep hcommittable huncommitted with
    ⟨err, heq⟩ | ⟨record, m', creq, hrequest, -, heq, hcomm⟩
  · rw [hcommit] at heq
    cases heq
    exact .inl ⟨err, rfl, rfl⟩
  right
  rw [hcommit] at heq
  cases heq
  have hresv := hflight.reserved
  have htouch := touchedBy_touchedChunkList hresv.each
  have hne := touchedChunkList_ne_nil hresv.each hcommittable.ne_nil
  have hpages : creq.effectsApplyRequest.allocationPages ≠ [] := by
    obtain ⟨rev, base, halloc, -⟩ := hcommittable.prepared
    rw [(hcommittable.isEffects hrequest).pages_eq]
    exact halloc.pages_ne_nil hne
  have hkey : creq.stateCommitRequest.idempotencyKey = (req i).idempotencyKey :=
    (commitRequest_eq_ok hrequest).1.trans hexec.key_eq
  have hrep' := hresv.commit_represents htouch hne hcomm.toIsCommitted hrep
    hpaid.paid hpaid.place
    (fun hnil e he k hk _ x hlo hhi => hrep.zero e he k hk (h.native hnil k) x hlo hhi)
  refine ⟨⟨_, rfl⟩, h.update (c.afterCommit ⟨m', []⟩) .done _ hrep'
    (fun hnil => absurd hnil (hcomm.effect.ne_nil hne)) (fun x => ?_) (fun j hj => ?_)
    (fun _ hexec => (by cases hexec)) (fun k hk => patch_of_not_writes hk f)⟩
  · by_cases hx : (req i).Writes x
    · exact patch_congr_writes hx _ _
    · exact patch_of_not_writes hx _
  have hij : (req i).idempotencyKey ≠ (req j).idempotencyKey := hreq.keys i j (Ne.symm hj)
  have hdisj := hreq.disjoint i j (Ne.symm hj)
  have hself : (phase i).execution = some exec := by rw [hphase]; rfl
  have hright := fun exec' hexec' => h.apart j i hj exec' exec hexec' hself
  refine (h.call j).frame ?_ (fun exec' hexec' => ((h.call j).inFlight hexec').of_commit
      hresv hrep h.native htouch hne hpages hcomm (hkey ▸ hij) hdisj
      (h.apart i j (Ne.symm hj) exec exec' hself hexec') (hright exec' hexec'))
    (fun _ _ _ _ _ _ _ _ => rfl)
    (fun x hx => patch_of_not_writes (hdisj.not_writes hx) f) ?_
  · show get? _ _ m'.idempotency = _
    exact hcomm.intents _ (hkey ▸ hij)
  · intro exec' hexec' p hp k hk hre x hlo hhi
    have hother := ((h.call j).inFlight hexec').reserved
    obtain ⟨e, he, hsame⟩ := hother.exists_extent hp
    have ht := ((hother.each p hp).mem_writtenChunks.mp hk).1
    refine hresv.patch_eq_of_untouched (fun q hq k' hk' => (htouch k').mpr ⟨q, hq, hk'⟩)
      he (hsame.hasChunk_iff.mpr ht.2) (fun hmem => ?_) hlo hhi
    obtain ⟨q, hq, hk'⟩ := (htouch k).mp hmem
    exact (hright exec' hexec').untouched p hp k hk hre q hq hk'

/-- The actions under which calls do not lose each other's bytes: a call begins apart from those
in flight, its stores do not fail, and a rebase loses no zeros. -/
def StaysApart (g : Geometry) (cfg : ExecutorConfig) (req : ι → WriteRequest) (s : Calls ι) (i : ι) :
    Action → Prop
  | .begin => MayBegin g req s i
  | .payload faults => faults = .reliable
  | .rebase => MayRebase g cfg req s i
  | _ => True

theorem Phase.Doomed.callStep {r : WriteRequest} {ph' : Phase} (h : ph.Doomed)
    (hstep : callStep cfg r c a ph = some (c', ph')) : ph'.Doomed := by
  cases callStep_cases hstep with
  | refused | begun => exact h.elim
  | unpaid | unprepared | lost | marked => trivial
  | @paid faults exec _ _ hpay =>
    rw [writePayload, show exec.extents = [] from h] at hpay
    cases hpay
    exact h
  | prepared _ => exact h
  | committed hcommit =>
    rw [commitMetadata, if_pos] at hcommit
    · cases hcommit
    by_contra hready
    exact extents_ne_nil_of_canCommitMetadata (by simpa using hready) h
  | uncommitted _ hphase =>
    rcases hphase with rfl | rfl
    · exact h
    · trivial
  | @rebased exec _ hrebase =>
    rw [rebaseWritePlanForRetry, if_pos (show exec.extents = [] from h)] at hrebase
    cases hrebase
    exact h

/-- Every action of a call that stays apart keeps the invariant. -/
theorem Sound.callStep (hasync : cfg.asyncWriteEffects = false) (hreq : Compatible g req)
    (h : Sound g size cfg req f₀ c phase f live planned) (hok : StaysApart g cfg req ⟨c, phase⟩ i a)
    (hstep : callStep cfg (req i) c a (phase i) = some (c', ph)) :
    ph.Doomed ∨ ∃ f' live' planned',
      Sound g size cfg req f₀ c' (Function.update phase i ph) f' live' planned' := by
  have hself := h.call i
  generalize hphase : phase i = ph0 at hstep hself
  cases callStep_cases hstep with
  | refused | unpaid | unprepared | lost => exact .inl trivial
  | @begun result m' hbegin =>
    cases result with
    | replay _ =>
      -- the key has no record to replay
      cases begun_of_beginWrite hbegin with
      | replay _ hrec _ =>
        rw [show get? _ _ _ = _ from hself] at hrec
        cases hrec
    | noop _ => exact .inr ⟨_, _, _, h.noop hreq hbegin⟩
    | execution exec =>
      by_cases hne : exec.extents = []
      · exact .inl hne
      · exact .inr ⟨_, _, _, h.begin hreq hphase hok hbegin hne⟩
  | @paid faults exec exec' stores hpay =>
    obtain rfl : faults = .reliable := hok
    exact .inr ⟨_, _, _, h.pay hreq hphase hpay⟩
  | @prepared exec alloc hprep =>
    refine .inr ⟨f, live, planned, h.rephase c rfl rfl
      ⟨hself.1, hself.2.1, hself.2.2, hprep⟩ fun exec' hexec' => ?_⟩
    cases hexec'
    exact ⟨exec, by rw [hphase]; rfl, .inl rfl⟩
  | committed hcommit =>
    rcases h.commit hasync hreq hphase hcommit with ⟨err, herr, -⟩ | ⟨-, hsound⟩
    · cases herr
    · exact .inr ⟨_, _, _, hsound⟩
  | @uncommitted now exec alloc err outcome _ hcommit hfailed =>
    rcases hfailed with rfl | rfl
    · rcases h.commit hasync hreq hphase hcommit with ⟨err, -, hsame⟩ | ⟨⟨_, herr⟩, -⟩
      · have hconflicted : CallSound g cfg c.repository c.stores f (req i) (live i) (planned i)
            (.conflicted exec) := ⟨hself.1, hself.2.1, hself.2.2.1⟩
        refine .inr ⟨f, live, planned, h.rephase (c.afterCommit outcome) hsame rfl hconflicted
          fun exec' hexec' => ?_⟩
        cases hexec'
        exact ⟨exec, by rw [hphase]; rfl, .inl rfl⟩
      · cases herr
    · exact .inl trivial
  | rebased hrebase => exact .inr ⟨_, _, _, h.rebase hphase hok hrebase⟩
  | marked => exact hself.elim

end Steps

end Namrbd
