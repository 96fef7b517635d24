import Namrbd.Client.ZeroEvidence
import Namrbd.Verify.FlatVolume

/-!
# Coherence of the zero evidence cache

Once a write of data has returned, no page in the cache may show a chunk of it as zero.
`ClientConfig.Forgets` holds as long as what is remembered is what the allocation map
says at that time, and the map shows the chunk of the write. A read that resolved its
pages before the write and remembers them afterwards brings the zeros back.
-/

namespace Namrbd

open ClientConfig Function List Option Repository Result Table

variable {chunk now : Nat} {m : Repository} {cache cache' : ZeroEvidenceCache}

def AllocationPageRecord.ShowsZero (page : AllocationPageRecord) (chunk : Nat) : Prop :=
  page.zeroState chunk = (true, true)

instance (page : AllocationPageRecord) (chunk : Nat) : Decidable (page.ShowsZero chunk) :=
  inferInstanceAs (Decidable (_ = _))

namespace ClientConfig

variable {cfg : ClientConfig}

def pageOf (cfg : ClientConfig) (chunk : Nat) : Nat :=
  chunk / (cfg.extentPageBytes / cfg.chunkSizeBytes)

def Maps (cfg : ClientConfig) (m : Repository) (chunk : Nat) : Prop :=
  ∀ page ∈ (m.getCompatibleAllocationPage (cfg.pageOf chunk) cfg.extentPageBytes
    cfg.chunkSizeBytes).toOption, ¬page.ShowsZero chunk

instance (m : Repository) (chunk : Nat) : Decidable (cfg.Maps m chunk) :=
  inferInstanceAs (Decidable (∀ page ∈ Except.toOption _, _))

def Forgets (cfg : ClientConfig) (cache : ZeroEvidenceCache) (chunk : Nat) : Prop :=
  ∀ cached ∈ cache (cfg.evidenceKey (cfg.pageOf chunk)), ¬cached.page.ShowsZero chunk

theorem geometry_of_validSpec (h : cfg.validSpec = true) :
    ∃ g : Geometry, g.pageBytes = cfg.extentPageBytes ∧ g.chunkSizeBytes = cfg.chunkSizeBytes := by
  obtain ⟨hpage, hchunk, hmod⟩ := of_decide_eq_true h
  exact ⟨⟨_, _, Nat.pos_of_ne_zero hpage, Nat.pos_of_ne_zero hchunk, hmod⟩, rfl, rfl⟩

variable {off len : Nat} {pages : List ResolvedAllocationPage}

theorem pageOf_mem_touchedPages (hspec : cfg.validSpec = true) (hlen : 0 < len)
    (hhit : Hits cfg.chunkSizeBytes off len chunk) :
    cfg.pageOf chunk ∈ touchedPages cfg.extentPageBytes off len := by
  obtain ⟨g, hpage, hchunk⟩ := geometry_of_validSpec hspec
  have hmem := pageOf_mem_requestPageNos hlen (hchunk ▸ hhit)
  unfold requestPageNos Geometry.pageOf at hmem
  rw [Nat.div_div_eq_div_mul, Nat.div_div_eq_div_mul, Nat.mul_comm, g.chunksPerPage_mul] at hmem
  unfold pageOf touchedPages
  rw [← hpage, ← hchunk]
  exact hmem

/-! ## Lookups -/

def Dropped (cache cache' : ZeroEvidenceCache) : Prop :=
  ∀ key, ∀ cached ∈ cache' key, cached ∈ cache key

theorem Dropped.refl (cache : ZeroEvidenceCache) : Dropped cache cache := fun _ _ h => h

theorem Dropped.update_none (cache : ZeroEvidenceCache) (key : ZeroEvidenceCacheKey) :
    Dropped cache (update cache key none) := by
  intro key' cached h
  by_cases hkey : key' = key
  · subst hkey
    simp at h
  · rwa [update_of_ne hkey] at h

theorem Forgets.of_dropped (h : cfg.Forgets cache chunk) (hdrop : Dropped cache cache') :
    cfg.Forgets cache' chunk :=
  fun cached hcached => h cached (hdrop _ cached hcached)

/-- A page as a lookup of its number finds it. -/
structure Cached (cfg : ClientConfig) (cache : ZeroEvidenceCache) (pageNo : Nat)
    (resolved : ResolvedAllocationPage) : Prop where
  page : ∃ cached ∈ cache (cfg.evidenceKey pageNo), resolved.page = cached.page
  containsChunk_iff : ∀ chunk, resolved.containsChunk chunk = true ↔
    pageNo * (cfg.extentPageBytes / cfg.chunkSizeBytes) ≤ chunk ∧
      chunk < pageNo * (cfg.extentPageBytes / cfg.chunkSizeBytes) +
        cfg.extentPageBytes / cfg.chunkSizeBytes

theorem dropped_collectZeroEvidence (now : Nat) (cache : ZeroEvidenceCache) (pageNos : List Nat) :
    Dropped cache (cfg.collectZeroEvidence now cache pageNos).2 := by
  induction pageNos with
  | nil => exact .refl cache
  | cons pageNo pageNos ih =>
    unfold collectZeroEvidence
    split
    · exact .refl cache
    · split
      · exact .update_none cache _
      · exact ih

variable {pageNos : List Nat} {pageNo : Nat}

theorem forall₂_collectZeroEvidence
    (h : (cfg.collectZeroEvidence now cache pageNos).1 = some pages) :
    Forall₂ (cfg.Cached cache) pageNos pages := by
  induction pageNos generalizing pages with
  | nil =>
    cases h
    exact .nil
  | cons pageNo pageNos ih =>
    unfold collectZeroEvidence at h
    split at h
    · cases h
    next cached hcached =>
    split at h
    · cases h
    · obtain ⟨rest, hrest, rfl⟩ := map_eq_some_iff.mp h
      refine .cons ⟨⟨cached, hcached, rfl⟩, fun chunk => ?_⟩ (ih hrest)
      exact decide_eq_true_iff

theorem dropped_lookupZeroEvidencePages (now : Nat) (cache : ZeroEvidenceCache) (off len : Nat) :
    Dropped cache (cfg.lookupZeroEvidencePages now cache off len).2 := by
  unfold lookupZeroEvidencePages
  split
  · exact .refl cache
  · exact dropped_collectZeroEvidence now cache _

theorem lookupZeroEvidencePages_eq_none (hlen : 0 < len)
    (hhit : Hits cfg.chunkSizeBytes off len chunk)
    (hforgets : cfg.validSpec = true → cfg.zeroEvidenceCacheTTL ≠ 0 → cfg.Forgets cache chunk) :
    (cfg.lookupZeroEvidencePages now cache off len).1 = none := by
  unfold lookupZeroEvidencePages
  split
  · rfl
  next hactive =>
  simp only [not_or, not_not] at hactive
  obtain ⟨httl, -, hspec⟩ := hactive
  apply filter_eq_none_iff.mpr
  intro pages hpages hzero
  have hcached := forall₂_collectZeroEvidence hpages
  obtain ⟨g, hpage, hchunk⟩ := geometry_of_validSpec hspec
  have hcpp : g.chunksPerPage = cfg.extentPageBytes / cfg.chunkSizeBytes := by
    rw [Geometry.chunksPerPage, hpage, hchunk]
  have hpos : 0 < cfg.chunkSizeBytes := hchunk ▸ g.chunkSizeBytes_pos
  have hstate : resolvedAllocationPagesChunkZeroState pages chunk = (true, true) := by
    unfold resolvedAllocationPagesRangeIsZero at hzero
    split at hzero
    · cases hzero
    · have hall := all_eq_true.mp hzero chunk ((mem_touchedChunks hpos hlen).mpr hhit)
      exact eq_of_beq hall
  unfold resolvedAllocationPagesChunkZeroState at hstate
  split at hstate
  · cases hstate
  next resolved hfind =>
  obtain ⟨pageNo, -, hres⟩ := exists_of_mem_right hcached (mem_of_find?_eq_some hfind)
  have hcont := (hres.containsChunk_iff chunk).mp (by simpa using find?_some hfind)
  rw [← hcpp] at hcont
  have hno : cfg.pageOf chunk = pageNo := by
    have := g.pageOf_eq_iff.mpr hcont
    rwa [Geometry.pageOf, hcpp] at this
  obtain ⟨cached, hmem, hcp⟩ := hres.page
  rw [← hno] at hmem
  exact hforgets hspec httl cached hmem (hcp ▸ hstate)

/-! ## Remembering and forgetting -/

theorem Forgets.rememberZeroEvidencePages (h : cfg.Forgets cache chunk)
    (hpages : ∀ resolved ∈ pages, resolved.page.pageNo = cfg.pageOf chunk →
      ¬resolved.page.ShowsZero chunk) :
    cfg.Forgets (cfg.rememberZeroEvidencePages now cache pages) chunk := by
  unfold ClientConfig.rememberZeroEvidencePages
  split
  · exact h
  induction pages generalizing cache with
  | nil => exact h
  | cons resolved pages ih =>
    apply ih _ fun resolved hmem => hpages resolved (mem_cons_of_mem _ hmem)
    dsimp only
    split
    · exact h
    intro cached hcached
    by_cases hkey : cfg.evidenceKey (cfg.pageOf chunk) =
        ⟨resolved.page.pageNo, resolved.page.pageBytes, resolved.page.chunkSizeBytes⟩
    · rw [hkey, update_self] at hcached
      cases hcached
      exact hpages resolved mem_cons_self (congrArg ZeroEvidenceCacheKey.pageNo hkey).symm
    · rw [update_of_ne hkey] at hcached
      exact h cached hcached

theorem foldl_update_none_dropped (cfg : ClientConfig) (cache : ZeroEvidenceCache)
    (pageNos : List Nat) :
    Dropped cache (pageNos.foldl (fun cache pageNo =>
      update cache (cfg.evidenceKey pageNo) none) cache) := by
  refine foldlRecOn _ _ (.refl cache) fun cache' hcache pageNo _ key cached h => ?_
  exact hcache key cached (Dropped.update_none cache' _ key cached h)

theorem foldl_update_none_eq_none (cfg : ClientConfig) (hmem : pageNo ∈ pageNos)
    (cache : ZeroEvidenceCache) :
    pageNos.foldl (fun cache pageNo => update cache (cfg.evidenceKey pageNo) none) cache
      (cfg.evidenceKey pageNo) = none := by
  induction pageNos generalizing cache with
  | nil => cases hmem
  | cons head pageNos ih =>
    rcases mem_cons.mp hmem with rfl | hmem
    · -- later entries are only dropped
      apply eq_none_iff_forall_not_mem.mpr
      intro cached hcached
      have := foldl_update_none_dropped cfg _ pageNos _ cached hcached
      simp at this
    · exact ih hmem _

/-! ## Resolved pages -/

/-- The pages of a range, however they are resolved, do not show a mapped chunk as zero. -/
theorem Maps.resolved (h : cfg.Maps m chunk)
    (hpages : m.resolveAllocationPages off len cfg.extentPageBytes cfg.chunkSizeBytes = .ok pages) :
    ∀ resolved ∈ pages, resolved.page.pageNo = cfg.pageOf chunk →
      ¬resolved.page.ShowsZero chunk := by
  intro resolved hmem hno
  obtain ⟨pageNo, hget⟩ := getCompatibleAllocationPage_of_resolved hpages resolved hmem
  apply h
  rw [← hno, pageNo_of_getCompatibleAllocationPage hget, hget]
  rfl

end ClientConfig

/-! ## Steps of a client -/

namespace ClientConfig

variable {cfg : ClientConfig}

theorem readStep_cache {req : ClientReadRequest} {action : ReadAction} {phase phase' : ReadPhase}
    (h : cfg.readStep m now cache req action phase = some (phase', cache')) :
    Dropped cache cache' ∨ ∃ pages, action = .remember ∧ phase = .resolved pages ∧
      cache' = cfg.rememberZeroEvidencePages now cache pages := by
  unfold readStep at h
  split at h
  · -- a lookup
    left
    repeat' split at h
    all_goals cases h
    all_goals first
      | exact .refl _
      | exact dropped_lookupZeroEvidencePages _ _ _ _
  · left
    repeat' split at h
    all_goals cases h
    all_goals exact .refl _
  · next pages =>
    cases h
    exact .inr ⟨pages, rfl, rfl, rfl⟩
  · cases h

variable {req : ClientWriteRequest} {action : WriteAction} {phase phase' : WritePhase}

theorem writeStep_cache (h : cfg.writeStep m now cache req action phase = some (phase', cache')) :
    Dropped cache cache' ∨ ∃ pages, action = .remember ∧ phase = .resolved pages ∧
      cache' = cfg.rememberZeroEvidencePages now cache pages := by
  unfold writeStep at h
  split at h
  · left
    repeat' split at h
    all_goals cases h
    all_goals first
      | exact .refl _
      | exact dropped_lookupZeroEvidencePages _ _ _ _
  · left
    repeat' split at h
    all_goals cases h
    all_goals exact .refl _
  · next pages =>
    cases h
    exact .inr ⟨pages, rfl, rfl, rfl⟩
  · cases h
    exact .inl (.refl _)
  · cases h
    exact .inl (.refl _)
  · cases h
    unfold invalidateZeroEvidenceRange
    split
    · exact .inl (.refl _)
    · exact .inl (foldl_update_none_dropped _ _ _)
  · cases h

inductive Serves (req : ClientWriteRequest) : WritePhase → Prop
  | idle : Serves req .idle
  | failed : Serves req .failed
  | serving (hvalid : req.valid = true) : Serves req .serving
  | committed (hvalid : req.valid = true) : Serves req .committed
  | returned (hvalid : req.valid = true) : Serves req .returned

theorem length_pos_of_valid (h : req.valid = true) : 0 < req.lengthBytes := by
  unfold ClientWriteRequest.valid at h
  apply Nat.pos_of_ne_zero
  split at h <;> simp_all

/-- A write of data goes to the write service, and returns when it has forgotten its range. -/
theorem Serves.writeStep (hphase : Serves req phase) (hdata : isAllZeroPayload req.data = false)
    (hmode : cfg.preferPayloadOnlyWrites = false)
    (h : cfg.writeStep m now cache req action phase = some (phase', cache')) :
    Serves req phase' ∧ (phase' = .returned →
      cache' = cfg.invalidateZeroEvidenceRange cache req.offsetBytes req.lengthBytes) := by
  have hpromotes : cfg.promotes req = false := by simp [promotes, hdata]
  cases hphase with
  | idle =>
    cases action <;> simp only [writeStep, hpromotes, reduceCtorEq] at h
    split at h
    · cases h
      exact ⟨.failed, nofun⟩
    next hvalid =>
    cases h
    exact ⟨.serving (by simpa using hvalid), nofun⟩
  | failed | returned hvalid => cases action <;> simp [writeStep] at h
  | serving hvalid =>
    cases action with
    | answer ok =>
      cases ok with
      | false =>
        cases h
        exact ⟨.failed, nofun⟩
      | true =>
        simp only [writeStep, hmode, Bool.false_eq_true, false_and, if_false] at h
        cases h
        exact ⟨.committed hvalid, nofun⟩
    | _ => simp [writeStep] at h
  | committed hvalid =>
    cases action with
    | invalidate =>
      cases h
      exact ⟨.returned hvalid, fun _ => rfl⟩
    | _ => simp [writeStep] at h

end ClientConfig

/-! ## Runs of a client -/

def ReadPhase.pages? : ReadPhase → Option (List ResolvedAllocationPage)
  | .resolved pages => some pages
  | _ => none

def WritePhase.pages? : WritePhase → Option (List ResolvedAllocationPage)
  | .resolved pages => some pages
  | _ => none

namespace ClientState

variable {ι : Type} [DecidableEq ι] (cfg : ClientConfig) (readRequest : ι → ClientReadRequest)
  (writeRequest : ι → ClientWriteRequest)

/-- Evidence that is remembered once the write `w` has returned is current: the map shows the
chunk of the write, and resolving the range again gives the same pages. -/
def EvidenceCurrent (w : ι) (chunk : Nat) (s : ClientState ι) : ClientEvent ι → Prop
  | .read i .remember => s.writes w = .returned → cfg.Maps s.repository chunk ∧
      ∀ pages ∈ (s.reads i).pages?, s.repository.resolveAllocationPages (readRequest i).offsetBytes
        (readRequest i).lengthBytes cfg.extentPageBytes cfg.chunkSizeBytes = .ok pages
  | .write i .remember => s.writes w = .returned → cfg.Maps s.repository chunk ∧
      ∀ pages ∈ (s.writes i).pages?, s.repository.resolveAllocationPages
        (writeRequest i).offsetBytes (writeRequest i).lengthBytes cfg.extentPageBytes
        cfg.chunkSizeBytes = .ok pages
  | _ => True

instance (w : ι) (chunk : Nat) (s : ClientState ι) :
    (e : ClientEvent ι) → Decidable (EvidenceCurrent cfg readRequest writeRequest w chunk s e)
  | .read _ .remember => inferInstanceAs (Decidable (_ → _))
  | .write _ .remember => inferInstanceAs (Decidable (_ → _))
  | .tick _ | .store _ | .read _ .lookup | .read _ .resolve | .write _ .begin | .write _ .resolve
  | .write _ (.answer _) | .write _ .invalidate => inferInstanceAs (Decidable True)

/-- The write `w` goes to the write service, and has forgotten its range when it returns. -/
structure Coherent (w : ι) (chunk : Nat) (s : ClientState ι) : Prop where
  serves : ClientConfig.Serves (writeRequest w) (s.writes w)
  forgets : s.writes w = .returned → cfg.validSpec = true → cfg.zeroEvidenceCacheTTL ≠ 0 →
    cfg.Forgets s.cache chunk

variable {cfg readRequest writeRequest} {w : ι} {s s' : ClientState ι}

/-- Once the write has returned, no step remembers its chunk as zero. -/
theorem Coherent.step (h : Coherent cfg writeRequest w chunk s)
    (hdata : isAllZeroPayload (writeRequest w).data = false)
    (hmode : cfg.preferPayloadOnlyWrites = false)
    (hhit : Hits cfg.chunkSizeBytes (writeRequest w).offsetBytes (writeRequest w).lengthBytes chunk)
    {e : ClientEvent ι} (hcur : EvidenceCurrent cfg readRequest writeRequest w chunk s e)
    (hstep : step cfg readRequest writeRequest s e = some s') :
    Coherent cfg writeRequest w chunk s' := by
  cases e with
  | tick elapsed | store repository =>
    cases hstep
    exact ⟨h.serves, h.forgets⟩
  | read i action =>
    obtain ⟨⟨phase', cache'⟩, hread, rfl⟩ := map_eq_some_iff.mp hstep
    refine ⟨h.serves, fun hreturned hspec httl => ?_⟩
    rcases readStep_cache hread with hdrop | ⟨pages, rfl, hphase, rfl⟩
    · exact (h.forgets hreturned hspec httl).of_dropped hdrop
    · obtain ⟨hmaps, hfresh⟩ := hcur hreturned
      exact (h.forgets hreturned hspec httl).rememberZeroEvidencePages
        (hmaps.resolved (hfresh pages (by rw [hphase]; rfl)))
  | write i action =>
    obtain ⟨⟨phase', cache'⟩, hwrite, rfl⟩ := map_eq_some_iff.mp hstep
    by_cases hi : w = i
    · subst hi
      obtain ⟨hserves, hforgot⟩ := h.serves.writeStep hdata hmode hwrite
      have hself : update s.writes w phase' w = phase' := by
        rw [update_self]
      refine ⟨show Serves _ (update s.writes w phase' w) from
        hself.symm ▸ hserves, fun hreturned hspec httl => ?_⟩
      have hphase' : phase' = .returned := hself.symm.trans hreturned
      subst hphase'
      have hvalid : (writeRequest w).valid = true := by
        cases hserves with
        | returned hvalid => exact hvalid
      rw [hforgot rfl]
      have hpos := length_pos_of_valid hvalid
      obtain ⟨hpage, hchunk, -⟩ := of_decide_eq_true hspec
      intro cached hcached
      dsimp only at hcached
      rw [invalidateZeroEvidenceRange, if_neg (by simp [httl, hpos.ne', hpage, hchunk]),
        foldl_update_none_eq_none cfg (pageOf_mem_touchedPages hspec hpos hhit)] at hcached
      cases hcached
    · have hother : update s.writes i phase' w = s.writes w := update_of_ne hi _ _
      refine ⟨show Serves _ (update s.writes i phase' w) from
        hother.symm ▸ h.serves, fun hreturned hspec httl => ?_⟩
      have hdone : s.writes w = .returned := hother.symm.trans hreturned
      rcases writeStep_cache hwrite with hdrop | ⟨pages, rfl, hphase, rfl⟩
      · exact (h.forgets hdone hspec httl).of_dropped hdrop
      · obtain ⟨hmaps, hfresh⟩ := hcur hdone
        exact (h.forgets hdone hspec httl).rememberZeroEvidencePages
          (hmaps.resolved (hfresh pages (by rw [hphase]; rfl)))

/-- Once a write of data has returned, no read is answered with zeros from the cache for a chunk
of it, as long as what is remembered after the write is current. -/
theorem read_after_write_not_cached {events : List (ClientEvent ι)}
    (hdata : isAllZeroPayload (writeRequest w).data = false)
    (hmode : cfg.preferPayloadOnlyWrites = false)
    (hhit : Hits cfg.chunkSizeBytes (writeRequest w).offsetBytes (writeRequest w).lengthBytes chunk)
    (hidle : s.writes w = .idle)
    (hcurrent : Trace.Guarded (step cfg readRequest writeRequest)
      (EvidenceCurrent cfg readRequest writeRequest w chunk) s events)
    (hrun : Trace.run (step cfg readRequest writeRequest) s events = some s')
    (hreturned : s'.writes w = .returned) {i : ι}
    (hread : Hits cfg.chunkSizeBytes (readRequest i).offsetBytes (readRequest i).lengthBytes chunk)
    {s'' : ClientState ι}
    (hlookup : step cfg readRequest writeRequest s' (.read i .lookup) = some s'') :
    s''.reads i ≠ .cachedZeros := by
  have hstart : Coherent cfg writeRequest w chunk s :=
    ⟨hidle ▸ .idle, fun h => by rw [hidle] at h; cases h⟩
  have hend : Coherent cfg writeRequest w chunk s' :=
    Trace.run_induction (Coherent cfg writeRequest w chunk)
      (fun _ _ _ h hcurrent hstep => h.step hdata hmode hhit hcurrent hstep) hstart hcurrent hrun
  obtain ⟨⟨phase', cache'⟩, hstep, rfl⟩ := map_eq_some_iff.mp hlookup
  change update s'.reads i phase' i ≠ _
  rw [update_self]
  cases hphase : s'.reads i with
  | idle =>
    simp only [readStep, hphase] at hstep
    split at hstep
    · cases hstep
      exact nofun
    next hlen =>
    split at hstep
    · cases hstep
      exact nofun
    split at hstep
    · cases hstep
      exact nofun
    -- the lookup finds no evidence
    rw [lookupZeroEvidencePages_eq_none (Nat.pos_of_ne_zero hlen) hread (hend.forgets hreturned)]
      at hstep
    cases hstep
    exact nofun
  | _ => simp [readStep, hphase] at hstep

end ClientState

/-! ## A write between resolving and remembering -/

namespace LegacyVolume

def clientConfig : ClientConfig :=
  { zeroEvidenceCacheTTL := 10, extentPageBytes := 8, chunkSizeBytes := 4 }

def clientReads (offsetBytes : Nat) (second : Bool) : ClientReadRequest :=
  { offsetBytes := if second then offsetBytes else 0, lengthBytes := 4 }

def clientWrites (_ : Bool) : ClientWriteRequest :=
  { offsetBytes := 0, lengthBytes := 4, data := List.replicate 4 65 }

def client : ClientState Bool := { repository := (cluster 0).repository }

def writeEvents : List (ClientEvent Bool) :=
  [.write false .begin, .store (afterFirst 0).repository, .write false (.answer true),
    .write false .invalidate]

/-- A read that resolved its pages before the write remembers them after it: the next read of the
chunk is answered with zeros, while the replicas hold the data. -/
theorem stale_zeros_after_write :
    ∃ s s', Trace.run (ClientState.step clientConfig (clientReads 0) clientWrites) client
        ([.read false .lookup, .read false .resolve] ++ writeEvents ++ [.read false .remember]) =
          some s ∧
      s.writes false = .returned ∧
      s.step clientConfig (clientReads 0) clientWrites (.read true .lookup) = some s' ∧
      s'.reads true = .cachedZeros ∧
      write {} 0 .reliable (cluster 0) (request "k1" 0 65) =
        (.ok ⟨false, true, 2⟩, afterFirst 0) ∧
      read .reliable (afterFirst 0) ⟨0, 4, 8, 4⟩ = .ok (List.replicate 4 65) :=
  ⟨_, _, rfl, by decide, rfl, by decide, Prod.ext (by decide) rfl, by decide⟩

/-- A read after the write remembers evidence, and the next one is not answered from it. -/
theorem fresh_evidence_after_write :
    ∃ s s', Trace.run (ClientState.step clientConfig (clientReads 4) clientWrites) client
        (writeEvents ++ [.read true .lookup, .read true .resolve, .read true .remember]) = some s ∧
      s.writes false = .returned ∧ s.reads true = .zeros ∧
      s.step clientConfig (clientReads 4) clientWrites (.read false .lookup) = some s' ∧
      s'.reads false ≠ .cachedZeros := by
  have hcur : Trace.Guarded (ClientState.step clientConfig (clientReads 4) clientWrites)
      (ClientState.EvidenceCurrent clientConfig (clientReads 4) clientWrites false 0) client
      (writeEvents ++ [.read true .lookup, .read true .resolve, .read true .remember]) := by
    decide
  have hhit : Hits clientConfig.chunkSizeBytes (clientReads 4 false).offsetBytes
      (clientReads 4 false).lengthBytes 0 := by decide
  exact ⟨_, _, rfl, by decide, by decide, rfl, ClientState.read_after_write_not_cached
    (by decide) rfl hhit rfl hcur rfl (by decide) hhit rfl⟩

end LegacyVolume

end Namrbd
