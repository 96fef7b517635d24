import Namrbd.Verify.SweepOutcome

/-!
# Retired chunks until they are collected

A chunk that was passed to `ensurePendingPayloadGCMutationOperation` is accounted for
while it is listed in the volume's payload GC operation, or once everything that is
left of it is referenced. Calls and sweeps read the operation, change it and put it
back, so what happens in between is lost; `retired_chunks_accounted` says when nothing
is.
-/

namespace Namrbd

open Function List Option RetiredChunks Repository

variable {extentIDs : List Nat} {record : MutationOperationRecord}

section Accounting

variable (replicaIDs : List String) (volumeID : String)

/-- Everything that is left of the chunk is referenced. -/
def Settled (s : GCStore) (id : Nat) : Prop :=
  ∀ key ∈ s.objects, key.replicaID ∈ replicaIDs → key.volumeID = volumeID → key.chunkID = id →
    s.repository.Protected key.extentID id

def Listed (s : GCStore) (id : Nat) : Prop :=
  ∃ op, s.operation volumeID = some op ∧ op.state ≠ .committed ∧ id ∈ op.retiredPhysicalChunkIDs

/-- The objects of the chunk belong to the extents. -/
def Named (extentIDs : List Nat) (s : GCStore) (id : Nat) : Prop :=
  ∀ key ∈ s.objects, key.replicaID ∈ replicaIDs → key.volumeID = volumeID → key.chunkID = id →
    key.extentID ≠ 0 ∧ key.extentID ∈ extentIDs

/-- The chunk is settled, or listed in a way that a sweep finds it. -/
def Tracked (s : GCStore) (id : Nat) : Prop :=
  Settled replicaIDs volumeID s id ∨
    ∃ op, s.operation volumeID = some op ∧ op.state ≠ .committed ∧
      id ∈ op.retiredPhysicalChunkIDs ∧ Named replicaIDs volumeID op.affectedExtentIDs s id

def KeepsTracked (act : GCAccess) (s : GCStore) : Prop :=
  ∀ id ≠ 0, Tracked replicaIDs volumeID s id → Tracked replicaIDs volumeID (s.handle act).2 id

/-- A process that loses no chunk, from a state on. -/
abbrev TracksFrom {α : Type} (p : GCProcess α) (post : α → GCStore → Prop) (s : GCStore) : Prop :=
  p.wp Faulty Eq (KeepsTracked replicaIDs volumeID) post s

variable {replicaIDs volumeID} {s t : GCStore} {act : GCAccess} {id : Nat}

instance : Decidable (Listed volumeID s id) :=
  decidable_of_iff ((s.operation volumeID).any (fun op =>
    decide (op.state ≠ .committed ∧ id ∈ op.retiredPhysicalChunkIDs)) = true) (by
      simp [Listed, Option.any_eq_true])

theorem Named.mono {extentIDs' : List Nat} (h : Named replicaIDs volumeID extentIDs s id)
    (hsubset : ∀ extentID ∈ extentIDs, extentID ≠ 0 → extentID ∈ extentIDs') :
    Named replicaIDs volumeID extentIDs' s id := by
  intro key hkey hrepl hvol hchunk
  obtain ⟨hne, hmem⟩ := h key hkey hrepl hvol hchunk
  exact ⟨hne, hsubset key.extentID hmem hne⟩

theorem sameRoots_handle (s : GCStore) (act : GCAccess) :
    s.repository.SameRoots (s.handle act).2.repository := by
  cases act with
  | putMutationOperation record => exact ⟨rfl, rfl, rfl, rfl, rfl, rfl⟩
  | _ => exact .refl _

variable {m m' : Repository}

theorem Repository.SameRoots.trans {m'' : Repository} (h : m.SameRoots m') (h' : m'.SameRoots m'') :
    m.SameRoots m'' where
  extents := h'.extents.trans h.extents
  pages := h'.pages.trans h.pages
  snapshots := h'.snapshots.trans h.snapshots
  snapshotPages := h'.snapshotPages.trans h.snapshotPages
  clones := h'.clones.trans h.clones
  cloneDeltaPages := h'.cloneDeltaPages.trans h.cloneDeltaPages

theorem Repository.SameRoots.scannedRoots_eq (h : m.SameRoots m') :
    m'.scannedRoots = m.scannedRoots := by
  simp only [scannedRoots, listSnapshotRecords, listCloneRecords,
    h.pages, h.snapshots, h.snapshotPages, h.clones, h.cloneDeltaPages]

theorem Repository.SameRoots.protected_iff (h : m.SameRoots m') {extentID id : Nat} :
    m'.Protected extentID id ↔ m.Protected extentID id := by
  unfold Protected
  rw [h.scannedRoots_eq, h.extents]

variable {ans : Except Err act.Value} {op : MutationOperationRecord} {α : Type}
  {post : α → GCStore → Prop}

theorem Faulty.sameRoots (h : Faulty act s ans t) : s.repository.SameRoots t.repository := by
  rcases h.answers with heq | ⟨-, -, rfl | rfl⟩
  · have hroots := sameRoots_handle s act
    rw [heq] at hroots
    exact hroots
  · exact .refl _
  · exact sameRoots_handle s act

theorem keepsTracked_of_spares (hact : act.Spares (payloadGCMutationOperationID volumeID)) :
    KeepsTracked replicaIDs volumeID act s := by
  intro id _ htracked
  have hs : Underway volumeID s.repository (s.operation volumeID) s := ⟨.refl _, rfl⟩
  have hafter := hs.handle hact
  have hsubset : ∀ key ∈ (s.handle act).2.objects, key ∈ s.objects :=
    objects_of_faulty ⟨none, rfl⟩
  rcases htracked with hsettled | ⟨op, hstored, hstate, hmem, hnamed⟩
  · exact .inl fun key hkey hrepl hvol hchunk =>
      hafter.roots.protected_iff.mpr (hsettled key (hsubset key hkey) hrepl hvol hchunk)
  · exact .inr ⟨op, hafter.operation_eq.trans hstored, hstate, hmem,
      fun key hkey => hnamed key (hsubset key hkey)⟩

theorem keepsTracked_getMutationOperation (operationID : String) :
    KeepsTracked replicaIDs volumeID (.getMutationOperation operationID) s :=
  fun _ _ htracked => htracked

theorem keepsTracked_put (hid : record.operationID = payloadGCMutationOperationID volumeID)
    (h : ∀ op, s.operation volumeID = some op → op.state ≠ .committed →
      ∀ id ≠ 0, id ∈ op.retiredPhysicalChunkIDs →
        Named replicaIDs volumeID op.affectedExtentIDs s id → Settled replicaIDs volumeID s id ∨
          record.state ≠ .committed ∧ id ∈ record.retiredPhysicalChunkIDs ∧
            Named replicaIDs volumeID record.affectedExtentIDs s id) :
    KeepsTracked replicaIDs volumeID (.putMutationOperation record) s := by
  intro id hne htracked
  have hstored : (s.handle (.putMutationOperation record)).2.operation volumeID = some record := by
    unfold GCStore.operation
    rw [← hid]
    exact Table.get?_put_self record _
  rcases htracked with hsettled | ⟨op, hop, hstate, hmem, hnamed⟩
  · exact .inl hsettled
  · rcases h op hop hstate id hne hmem hnamed with hsettled | hlisted
    · exact .inl hsettled
    · exact .inr ⟨record, hstored, hlisted⟩

theorem Faulty.tracked (h : Faulty act s ans t) (hact : KeepsTracked replicaIDs volumeID act s)
    (hid : id ≠ 0) (htracked : Tracked replicaIDs volumeID s id) :
    Tracked replicaIDs volumeID t id := by
  rcases h.answers with heq | ⟨-, -, rfl | rfl⟩
  · have hhandle := hact id hid htracked
    rw [heq] at hhandle
    exact hhandle
  · exact htracked
  · exact hact id hid htracked

/-! ## Single accesses -/

theorem Faulty.handle_eq {value : act.Value} (h : Faulty act s (.ok value) t) :
    s.handle act = (.ok value, t) := by
  obtain ⟨_ | fault, h⟩ := h
  · exact h
  · cases h

theorem operation_of_get
    (h : Faulty (.getMutationOperation (payloadGCMutationOperationID volumeID)) s (.ok op) t) :
    t = s ∧ s.operation volumeID = some op := by
  obtain ⟨hget, rfl⟩ := Prod.mk.inj h.handle_eq
  exact ⟨rfl, orNotFound_eq_ok.mp hget⟩

theorem operation_of_notFound
    (h : Faulty (.getMutationOperation (payloadGCMutationOperationID volumeID)) s
      (.error .notFound) t) : t = s ∧ s.operation volumeID = none := by
  obtain ⟨_ | fault, h⟩ := h
  on_goal 2 => cases h
  obtain ⟨hget, rfl⟩ := Prod.mk.inj h
  refine ⟨rfl, ?_⟩
  cases hop : s.operation volumeID with
  | none => rfl
  | some op =>
    rw [show s.repository.getMutationOperation _ = .ok op from orNotFound_eq_ok.mpr hop] at hget
    cases hget

theorem operation_of_put (hid : record.operationID = payloadGCMutationOperationID volumeID)
    (h : Faulty (.putMutationOperation record) s (.ok ()) t) :
    t.operation volumeID = some record ∧ t.objects = s.objects := by
  obtain ⟨-, rfl⟩ := Prod.mk.inj h.handle_eq
  refine ⟨?_, rfl⟩
  unfold GCStore.operation
  rw [← hid]
  exact Table.get?_put_self record _

theorem TracksFrom.attempt {post : Except Err act.Value → GCStore → Prop}
    (hact : KeepsTracked replicaIDs volumeID act s) (h : ∀ ans t, Faulty act s ans t → post ans t) :
    TracksFrom replicaIDs volumeID (GC.attempt act) post s := by
  rintro _ rfl
  refine ⟨hact, fun ans t hans => ?_⟩
  rintro _ rfl
  exact h ans t hans

theorem TracksFrom.bind {β : Type} {p : GCProcess α} {f : α → GCProcess β}
    {post' : β → GCStore → Prop} (h : TracksFrom replicaIDs volumeID p post s)
    (hf : ∀ a t, post a t → TracksFrom replicaIDs volumeID (f a) post' t) :
    TracksFrom replicaIDs volumeID (p >>= f) post' s :=
  Process.wp_bind (fun _ => rfl) (Process.wp_mono h (fun _ _ => id) hf)

theorem TracksFrom.done {a : α} (h : post a s) :
    TracksFrom replicaIDs volumeID (.done a) post s := by
  rintro _ rfl
  exact h

/-! ## Sweeps -/

def SweepBegun (volumeID : String) (operation : Option MutationOperationRecord) (s : GCStore) :
    Prop :=
  ∀ op, operation = some op → op.operationID = payloadGCMutationOperationID volumeID ∧
    op.state ≠ .committed ∧ s.operation volumeID = some op

open TracksFrom

theorem trackOperation_tracksFrom (hid : record.operationID = payloadGCMutationOperationID volumeID)
    (hstate : record.state ≠ .committed)
    (hput : KeepsTracked replicaIDs volumeID (.putMutationOperation record) s) :
    TracksFrom replicaIDs volumeID (trackOperation record) (fun operation t =>
      s.repository.SameRoots t.repository ∧ SweepBegun volumeID operation t) s := by
  refine bind (.attempt hput fun _ _ hans => hans) ?_
  rintro (err | ⟨⟩) t hans
  · exact .done ⟨hans.sameRoots, nofun⟩
  · refine .done ⟨hans.sameRoots, ?_⟩
    rintro _ ⟨⟩
    exact ⟨hid, hstate, (operation_of_put hid hans).1⟩

theorem keepsTracked_put_same (hstored : s.operation volumeID = some op)
    (hid : record.operationID = payloadGCMutationOperationID volumeID)
    (hstate : record.state ≠ .committed)
    (hchunks : record.retiredPhysicalChunkIDs = op.retiredPhysicalChunkIDs)
    (hexts : record.affectedExtentIDs = op.affectedExtentIDs) :
    KeepsTracked replicaIDs volumeID (.putMutationOperation record) s := by
  refine keepsTracked_put hid fun op' hop' _ id _ hmem hnamed => .inr ⟨hstate, ?_⟩
  obtain rfl : op = op' := some.inj (hstored.symm.trans hop')
  rw [hchunks, hexts]
  exact ⟨hmem, hnamed⟩

theorem beginSweepMutationOperation_tracksFrom :
    TracksFrom replicaIDs volumeID (beginSweepMutationOperation volumeID) (fun operation t =>
      s.repository.SameRoots t.repository ∧ SweepBegun volumeID operation t) s := by
  refine bind (.attempt (keepsTracked_of_spares trivial) fun _ _ hans => hans) ?_
  rintro (err | state) t hans
  · exact .done ⟨hans.sameRoots, nofun⟩
  obtain ⟨-, rfl⟩ := Prod.mk.inj hans.handle_eq
  refine bind (.attempt (keepsTracked_getMutationOperation _) fun _ _ hans => hans) ?_
  rintro (err | operation) t hget
  · cases err with
    | notFound =>
      obtain ⟨rfl, hnone⟩ := operation_of_notFound hget
      refine trackOperation_tracksFrom rfl (by simp) (keepsTracked_put rfl ?_)
      intro op hop
      rw [hnone] at hop
      cases hop
    | _ => exact .done ⟨hget.sameRoots, nofun⟩
  · obtain ⟨rfl, hstored⟩ := operation_of_get hget
    exact trackOperation_tracksFrom rfl (by simp)
      (keepsTracked_put_same hstored rfl (by simp) rfl rfl)

theorem endSweep_tracksFrom {operation : Option MutationOperationRecord}
    {r : Except Err SweepProgress} (hbegun : SweepBegun volumeID operation s)
    (hcleared : ∀ progress op, r = .ok progress → operation = some op →
      Cleared s.repository replicaIDs volumeID op s.objects) :
    TracksFrom replicaIDs volumeID (endSweep operation r) (fun _ _ => True) s := by
  cases operation with
  | none => cases r <;> exact .done trivial
  | some op =>
    obtain ⟨hid, hstate, hstored⟩ := hbegun op rfl
    cases r with
    | error err =>
      have hfail : TracksFrom replicaIDs volumeID (failOperation (some op) err) (fun _ _ => True) s :=
        .bind (.attempt (keepsTracked_put_same hstored hid (by simp) rfl rfl) fun _ _ hans => hans)
          fun _ _ _ => .done trivial
      exact hfail.bind fun _ _ _ => .done trivial
    | ok progress =>
      -- what the sweep was to collect is settled
      refine bind (.attempt (keepsTracked_put hid ?_) fun _ _ _ => trivial) ?_
      · intro op' hop' _ id hne hmem hnamed
        obtain rfl : op = op' := some.inj (hstored.symm.trans hop')
        left
        intro key hkey hrepl hvol hchunk
        obtain ⟨hext, haffected⟩ := hnamed key hkey hrepl hvol hchunk
        subst hchunk
        exact hcleared progress op rfl rfl key hkey hrepl hvol hne hmem hext haffected
      · rintro (err | ⟨⟩) t -
        · exact .done trivial
        · exact .done trivial

/-- A sweep on its own loses no chunk. -/
theorem sweepVolume_tracksFrom
    (hdist : ∀ pages ∈ s.repository.scannedRoots, DistinctPages pages) (chunkBatchSize : Nat)
    (spelling : String) :
    TracksFrom replicaIDs volumeID (sweepVolume chunkBatchSize replicaIDs spelling volumeID)
      (fun _ _ => True) s := by
  refine bind beginSweepMutationOperation_tracksFrom ?_
  rintro operation t ⟨hroots, hbegun⟩
  rw [← hroots.scannedRoots_eq] at hdist
  have hunderway : Underway volumeID t.repository (t.operation volumeID) t := ⟨.refl _, rfl⟩
  have htargets : SweepFrom t.repository volumeID (t.operation volumeID)
      (sweepTargets chunkBatchSize replicaIDs spelling volumeID operation)
      (fun _ u => Underway volumeID t.repository (t.operation volumeID) u ∧
        ∀ op, operation = some op → Cleared t.repository replicaIDs volumeID op u.objects) t :=
    sweepTargets_from hdist hunderway chunkBatchSize operation
  have hkeeps : ∀ act u, act.Spares (payloadGCMutationOperationID volumeID) →
      KeepsTracked replicaIDs volumeID act u := fun _ _ hact => keepsTracked_of_spares hact
  refine bind (Process.wp_mono htargets hkeeps fun _ _ => id) ?_
  intro r u hu
  have hsame : SweepBegun volumeID operation u ∧ t.repository.SameRoots u.repository := by
    have hu' : Underway volumeID t.repository (t.operation volumeID) u := by
      cases r with
      | error err => exact hu
      | ok progress => exact hu.1
    refine ⟨fun op hop => ?_, hu'.roots⟩
    obtain ⟨hid, hstate, hstored⟩ := hbegun op hop
    exact ⟨hid, hstate, hu'.operation_eq.trans hstored⟩
  refine endSweep_tracksFrom hsame.1 ?_
  rintro progress op rfl hop key hkey hrepl hvol hne hmem hext haffected
  exact hsame.2.protected_iff.mpr (hu.2 op hop key hkey hrepl hvol hne hmem hext haffected)

/-! ## Calls -/

/-- The next call may replace the lists of the stored operation. -/
def Replaceable (volumeID : String) (s : GCStore) : Prop :=
  ∀ op, s.operation volumeID = some op → op.state = .pending ∨ op.state = .running ∨
    op.state = .committed ∨ op.retiredPhysicalChunkIDs = []

section Calls

variable {chunkIDs : List Nat}

theorem put_ensuresFrom (hid : record.operationID = payloadGCMutationOperationID volumeID)
    (hstate : record.state ≠ .committed)
    (hchunks : ∀ id ∈ chunkIDs, id ≠ 0 → id ∈ record.retiredPhysicalChunkIDs)
    (hexts : ∀ extentID ∈ extentIDs, extentID ≠ 0 → extentID ∈ record.affectedExtentIDs)
    (hnamed : ∀ id ∈ chunkIDs, id ≠ 0 → Named replicaIDs volumeID extentIDs s id)
    (hstored : ∀ op, s.operation volumeID = some op → op.state ≠ .committed →
      ∀ id ∈ op.retiredPhysicalChunkIDs, id ≠ 0 → id ∈ record.retiredPhysicalChunkIDs ∧
      ∀ extentID ∈ op.affectedExtentIDs, extentID ≠ 0 → extentID ∈ record.affectedExtentIDs) :
    Process.EnsuresFrom Faulty Eq (KeepsTracked replicaIDs volumeID) (fun _ => True)
      (GC.access (.putMutationOperation record))
      (fun _ t => ∀ id ∈ chunkIDs, id ≠ 0 → Tracked replicaIDs volumeID t id) s := by
  have hkeeps : KeepsTracked replicaIDs volumeID (.putMutationOperation record) s := by
    refine keepsTracked_put hid fun op hop hopen id hne hmem hop' => ?_
    obtain ⟨hmem', hexts'⟩ := hstored op hop hopen id hmem hne
    exact .inr ⟨hstate, hmem', hop'.mono hexts'⟩
  refine attempt hkeeps ?_
  rintro (err | ⟨⟩) t hans
  · trivial
  · intro id hmem hne
    obtain ⟨hput, hobjects⟩ := operation_of_put hid hans
    refine .inr ⟨record, hput, hstate, hchunks id hmem hne, ?_⟩
    unfold Named
    rw [hobjects]
    exact (hnamed id hmem hne).mono hexts

/-- A call that returns has listed its chunks and dropped none. -/
theorem ensurePendingPayloadGCMutationOperation_ensuresFrom (pageNos : List Nat)
    (hreplaceable : Replaceable volumeID s)
    (hnamed : ∀ id ∈ chunkIDs, id ≠ 0 → Named replicaIDs volumeID extentIDs s id) :
    Process.EnsuresFrom Faulty Eq (KeepsTracked replicaIDs volumeID) (fun _ => True)
      (ensurePendingPayloadGCMutationOperation volumeID extentIDs pageNos chunkIDs)
      (fun _ t => ∀ id ∈ chunkIDs, id ≠ 0 → Tracked replicaIDs volumeID t id) s := by
  have hchunks : ∀ id ∈ chunkIDs, id ≠ 0 → id ∈ uniqueSortedUint64s chunkIDs :=
    fun id hmem hne => mem_uniqueSortedUint64s.mpr ⟨hne, hmem⟩
  have hexts : ∀ extentID ∈ extentIDs, extentID ≠ 0 → extentID ∈ uniqueSortedUint64s extentIDs :=
    fun extentID hmem hne => mem_uniqueSortedUint64s.mpr ⟨hne, hmem⟩
  unfold ensurePendingPayloadGCMutationOperation
  by_cases hnone : uniqueSortedUint64s chunkIDs = []
  · rw [if_pos hnone]
    refine .pure fun t _ id hmem hne => ?_
    have hin := hchunks id hmem hne
    rw [hnone] at hin
    exact absurd hin not_mem_nil
  rw [if_neg hnone]
  have hstate : Process.EnsuresFrom Faulty Eq (KeepsTracked replicaIDs volumeID) (fun _ => True)
      (GC.access .getVolumeState) (fun _ t => t = s) s := by
    refine attempt (keepsTracked_of_spares trivial) ?_
    rintro (err | state) t hans
    · trivial
    · exact (Prod.mk.inj hans.handle_eq).2.symm
  refine Process.EnsuresFrom.bind (fun _ => rfl) (fun _ _ _ _ => trivial) hstate ?_
  rintro state _ rfl
  refine Process.EnsuresFrom.bind (fun _ => rfl) (fun _ _ _ _ => trivial)
    (.lift (fun _ => rfl) (attempt (keepsTracked_getMutationOperation _)
      fun _ _ hans _ heq => heq ▸ hans)) ?_
  rintro (err | operation) t hget
  · cases err with
    | notFound =>
      obtain ⟨rfl, hop⟩ := operation_of_notFound hget
      refine put_ensuresFrom rfl (by simp) hchunks hexts hnamed fun op hop' => ?_
      rw [hop] at hop'
      cases hop'
    | _ => exact .throw fun _ _ => trivial
  obtain ⟨rfl, hop⟩ := operation_of_get hget
  dsimp only
  split
  · next hopen =>
    refine put_ensuresFrom rfl ?_ ?_ ?_ hnamed ?_
    · rcases hopen with hopen | hopen
      · simp [hopen]
      · simp [hopen]
    · intro id hmem hne
      exact mem_uniqueSortedUint64s.mpr ⟨hne, mem_append_right _ (hchunks id hmem hne)⟩
    · intro extentID hmem hne
      exact mem_uniqueSortedUint64s.mpr ⟨hne, mem_append_right _ (hexts extentID hmem hne)⟩
    intro op hop' _ id hmem hne
    obtain rfl : operation = op := some.inj (hop.symm.trans hop')
    refine ⟨mem_uniqueSortedUint64s.mpr ⟨hne, mem_append_left _ hmem⟩, ?_⟩
    intro extentID hmem' hne'
    exact mem_uniqueSortedUint64s.mpr ⟨hne', mem_append_left _ hmem'⟩
  · next hclosed =>
    refine put_ensuresFrom rfl (by simp) hchunks hexts hnamed ?_
    -- nothing is listed that the call replaces
    intro op hop' hopen id hmem
    obtain rfl : operation = op := some.inj (hop.symm.trans hop')
    rcases hreplaceable operation hop with hstate | hstate | hstate | hempty
    · exact absurd (.inl hstate) hclosed
    · exact absurd (.inr hstate) hclosed
    · exact absurd hstate hopen
    · rw [hempty] at hmem
      exact absurd hmem not_mem_nil

end Calls

end Accounting

section Runs

variable {ε κ : Type} [DecidableEq ε] [DecidableEq κ] {use : RetireUse ε}

def RetiredChunks.Idle (s : RetiredChunks ε κ) : Prop :=
  (∀ e, s.retire e = none) ∧ ∀ k, s.sweep k = none

/-- Calls and sweeps begin one after the other; a call names the extents of its chunks, and
does not replace the chunks of a sweep that has failed. -/
def RetireEvent.Ordered (use : RetireUse ε) (s : RetiredChunks ε κ) : RetireEvent ε κ → Prop
  | .startRetire e => s.Idle ∧ Replaceable use.volumeID s.store ∧
      ∀ id ∈ (use.retire e).retiredPhysicalChunkIDs, id ≠ 0 →
        Named use.replicaIDs use.volumeID (use.retire e).affectedExtentIDs s.store id
  | .startSweep _ => s.Idle
  | _ => True

def RetiredChunks.OrderedStep (use : RetireUse ε) (s t : RetiredChunks ε κ) : Prop :=
  ∃ event : RetireEvent ε κ, event.Ordered use s ∧ s.step use event = some t

variable {event : RetireEvent ε κ} {events : List (RetireEvent ε κ)}

theorem RetiredChunks.sameRoots_step {s t : RetiredChunks ε κ} (h : s.step use event = some t) :
    s.store.repository.SameRoots t.store.repository := by
  have hanswer : ∀ act fault, s.store.repository.SameRoots (s.store.answer act fault).2.repository :=
    fun act fault => Faulty.sameRoots ⟨fault, rfl⟩
  cases event with
  | retire e fault | sweep k fault =>
    simp only [step] at h
    split at h
    · obtain rfl := some.inj h
      exact hanswer _ fault
    · cases h
  | startRetire e | startSweep k =>
    simp only [step] at h
    split at h
    · cases h
    · obtain rfl := some.inj h
      exact .refl _
  | endRetire e | endSweep k =>
    simp only [step] at h
    split at h
    all_goals cases h
    all_goals exact .refl _

theorem RetiredChunks.sameRoots_steps {s t : RetiredChunks ε κ} (h : s.steps use events = some t) :
    s.store.repository.SameRoots t.store.repository := by
  induction events generalizing s with
  | nil =>
    obtain rfl := some.inj h
    exact .refl _
  | cons event events ih =>
    obtain ⟨s', hstep, hrest⟩ := bind_eq_some_iff.mp h
    exact (sameRoots_step hstep).trans (ih hrest)

/-- What is under way loses no chunk. -/
inductive RetiredChunks.Sound (use : RetireUse ε) (s : RetiredChunks ε κ) : Prop
  | idle (hidle : s.Idle)
  | retire (e : ε) (p : GCProcess (Except Err Unit))
      (hretire : s.retire = Function.update (fun _ => none) e (some p))
      (hsweep : ∀ k, s.sweep k = none)
      (hp : TracksFrom use.replicaIDs use.volumeID p (fun r t => r = .ok () →
        ∀ id ∈ (use.retire e).retiredPhysicalChunkIDs, id ≠ 0 →
          Tracked use.replicaIDs use.volumeID t id) s.store)
  | sweep (k : κ) (p : GCProcess (Except Err (List LocalPayloadSweepResult)))
      (hsweep : s.sweep = Function.update (fun _ => none) k (some p))
      (hretire : ∀ e, s.retire e = none)
      (hp : TracksFrom use.replicaIDs use.volumeID p (fun _ _ => True) s.store)

section Sound

variable {s : RetiredChunks ε κ}

theorem RetiredChunks.Sound.of_retire (h : s.Sound use) {e : ε} {p : GCProcess (Except Err Unit)}
    (hp : s.retire e = some p) :
    (∀ q, update s.retire e q = update (fun _ => none) e q) ∧ (∀ k, s.sweep k = none) ∧
      TracksFrom use.replicaIDs use.volumeID p (fun r t => r = .ok () →
        ∀ id ∈ (use.retire e).retiredPhysicalChunkIDs, id ≠ 0 →
          Tracked use.replicaIDs use.volumeID t id) s.store := by
  cases h with
  | idle hidle => simp [hidle.1 e] at hp
  | retire e' p' hretire hsweep hp' =>
    by_cases he : e = e'
    · subst he
      obtain rfl : p' = p := by simpa [hretire] using hp
      exact ⟨fun q => by rw [hretire, update_idem], hsweep, hp'⟩
    · simp [hretire, he] at hp
  | sweep k p' hsweep hretire hp' => simp [hretire e] at hp

theorem RetiredChunks.Sound.of_sweep (h : s.Sound use) {k : κ}
    {p : GCProcess (Except Err (List LocalPayloadSweepResult))} (hp : s.sweep k = some p) :
    (∀ q, update s.sweep k q = update (fun _ => none) k q) ∧ (∀ e, s.retire e = none) ∧
      TracksFrom use.replicaIDs use.volumeID p (fun _ _ => True) s.store := by
  cases h with
  | idle hidle => simp [hidle.2 k] at hp
  | retire e p' hretire hsweep hp' => simp [hsweep k] at hp
  | sweep k' p' hsweep hretire hp' =>
    by_cases hk : k = k'
    · subst hk
      obtain rfl : p' = p := by simpa [hsweep] using hp
      exact ⟨fun q => by rw [hsweep, update_idem], hretire, hp'⟩
    · simp [hsweep, hk] at hp

end Sound

structure RetiredChunks.Accounts (use : RetireUse ε) (s : RetiredChunks ε κ) : Prop where
  tracked : ∀ id ∈ s.accepted, id ≠ 0 → Tracked use.replicaIDs use.volumeID s.store id
  sound : s.Sound use

/-- An event in its order keeps all chunks accounted for. -/
theorem RetiredChunks.Accounts.step {s t : RetiredChunks ε κ} (h : s.Accounts use)
    (hdist : ∀ pages ∈ s.store.repository.scannedRoots, DistinctPages pages)
    (hordered : event.Ordered use s) (hstep : s.step use event = some t) : t.Accounts use := by
  cases event with
  | startRetire e =>
    obtain ⟨hidle, hreplaceable, hnamed⟩ := hordered
    simp only [step, hidle.1 e, some.injEq] at hstep
    subst hstep
    refine ⟨h.tracked, .retire e _ (congrArg (update · e _) (funext hidle.1)) hidle.2 ?_⟩
    refine Process.wp_mono (ensurePendingPayloadGCMutationOperation_ensuresFrom
      (use.retire e).affectedPageNos hreplaceable hnamed) (fun _ _ => id) ?_
    rintro _ t hr rfl
    exact hr
  | startSweep k =>
    simp only [step, hordered.2 k, some.injEq] at hstep
    subst hstep
    exact ⟨h.tracked, .sweep k _ (congrArg (update · k _) (funext hordered.2))
      hordered.1 (sweepVolume_tracksFrom hdist use.chunkBatchSize use.spelling)⟩
  | retire e fault =>
    simp only [step] at hstep
    split at hstep
    · next act next hp =>
      obtain rfl := some.inj hstep
      obtain ⟨hretire, hsweep, hwp⟩ := h.sound.of_retire hp
      obtain ⟨hact, hnext⟩ := hwp s.store rfl
      have hans : Faulty act s.store _ _ := ⟨fault, rfl⟩
      exact ⟨fun id hid hne => hans.tracked hact hne (h.tracked id hid hne),
        .retire e _ (hretire _) hsweep (hnext _ _ hans)⟩
    · cases hstep
  | endRetire e =>
    simp only [step] at hstep
    split at hstep
    · next hp =>
      obtain rfl := some.inj hstep
      obtain ⟨hretire, hsweep, hwp⟩ := h.sound.of_retire hp
      refine ⟨forall_mem_append.mpr ⟨hwp s.store rfl rfl, h.tracked⟩, .idle ⟨fun e' => ?_, hsweep⟩⟩
      simp [hretire]
    · next err hp =>
      obtain rfl := some.inj hstep
      obtain ⟨hretire, hsweep, -⟩ := h.sound.of_retire hp
      refine ⟨h.tracked, .idle ⟨fun e' => ?_, hsweep⟩⟩
      simp [hretire]
    · cases hstep
  | sweep k fault =>
    simp only [step] at hstep
    split at hstep
    · next act next hp =>
      obtain rfl := some.inj hstep
      obtain ⟨hsweep, hretire, hwp⟩ := h.sound.of_sweep hp
      obtain ⟨hact, hnext⟩ := hwp s.store rfl
      have hans : Faulty act s.store _ _ := ⟨fault, rfl⟩
      exact ⟨fun id hid hne => hans.tracked hact hne (h.tracked id hid hne),
        .sweep k _ (hsweep _) hretire (hnext _ _ hans)⟩
    · cases hstep
  | endSweep k =>
    simp only [step] at hstep
    split at hstep
    · next hp =>
      obtain rfl := some.inj hstep
      obtain ⟨hsweep, hretire, -⟩ := h.sound.of_sweep hp
      refine ⟨h.tracked, .idle ⟨hretire, fun k' => ?_⟩⟩
      simp [hsweep]
    · cases hstep

/-- In an ordered run every chunk id that a call has accepted is still listed in the payload GC
operation of the volume, or what is left of the chunk is referenced. -/
theorem retired_chunks_accounted (store : GCStore)
    (hdistinct : ∀ pages ∈ store.repository.scannedRoots, DistinctPages pages)
    {s : RetiredChunks ε κ}
    (hrun : Relation.ReflTransGen (RetiredChunks.OrderedStep use) (.start store) s) :
    ∀ id ∈ s.accepted, id ≠ 0 →
      Listed use.volumeID s.store id ∨ Settled use.replicaIDs use.volumeID s.store id := by
  -- along the run the roots stay as they are
  have haccounts : store.repository.SameRoots s.store.repository ∧ s.Accounts use := by
    induction hrun with
    | refl =>
      refine ⟨.refl _, fun _ hid => absurd hid not_mem_nil, .idle ⟨?_, ?_⟩⟩
      · exact fun _ => rfl
      · exact fun _ => rfl
    | tail _ hstep ih =>
      obtain ⟨hroots, hs⟩ := ih
      obtain ⟨event, hordered, hstep⟩ := hstep
      rw [← hroots.scannedRoots_eq] at hdistinct
      exact ⟨hroots.trans (sameRoots_step hstep), hs.step hdistinct hordered hstep⟩
  obtain ⟨-, haccounts⟩ := haccounts
  intro id hid hne
  rcases haccounts.tracked id hid hne with hsettled | ⟨op, hop, hstate, hmem, -⟩
  · exact .inr hsettled
  · exact .inl ⟨op, hop, hstate, hmem⟩

/-- What is under way may go on and end at any time. -/
theorem RetiredChunks.reflTransGen_of_steps
    (hevents : ∀ event ∈ events, ∀ s : RetiredChunks ε κ, event.Ordered use s)
    {s t : RetiredChunks ε κ} (h : s.steps use events = some t) :
    Relation.ReflTransGen (OrderedStep use) s t := by
  induction events generalizing s with
  | nil =>
    obtain rfl := some.inj h
    exact .refl
  | cons event events ih =>
    obtain ⟨s', hstep, hrest⟩ := bind_eq_some_iff.mp h
    refine .head ⟨event, hevents event mem_cons_self s, hstep⟩ (ih ?_ hrest)
    exact fun event' hmem => hevents event' (mem_cons_of_mem _ hmem)

end Runs

namespace TwoRetirements

def page : AllocationPageRecord :=
  { pageNo := 0, pageBytes := 4, chunkSizeBytes := 4, revision := 1
    extents := [{ logicalChunkStart := 0, chunkCount := 1, kind := .data, physicalChunkStart := 1 }] }

def store : GCStore where
  repository := {
    volume := some { epoch := 1, revision := 1 }
    extents := [⟨1, 0, 4, 0, "p1", 1⟩]
    pages := [page] }
  objects := [⟨"r1", "v1", 1, 1⟩, ⟨"r1", "v1", 1, 10⟩, ⟨"r1", "v1", 1, 20⟩]

def use : RetireUse Bool where
  volumeID := "v1"
  spelling := "v1"
  retire e := ⟨[1], [], [if e then 20 else 10]⟩
  chunkBatchSize := 64
  replicaIDs := ["r1"]

def call (e : Bool) : List (RetireEvent Bool Unit) :=
  [.startRetire e, .retire e none, .retire e none, .retire e none, .endRetire e]

/-- The second call comes while a sweep for the first chunk is under way. -/
def during : List (RetireEvent Bool Unit) :=
  call false ++ [.startSweep (), .sweep () none, .sweep () none, .sweep () none] ++ call true ++
    List.replicate 12 (.sweep () none) ++ [.endSweep ()]

/-- The second call comes after a sweep for the first chunk has failed. -/
def after : List (RetireEvent Bool Unit) :=
  call false ++ [.startSweep (), .sweep () none, .sweep () none, .sweep () none,
    .sweep () (some ("unavailable", false)), .sweep () none, .endSweep ()] ++ call true

theorem distinctPages : ∀ pages ∈ store.repository.scannedRoots, DistinctPages pages := by
  unfold DistinctPages
  decide

theorem not_protected {id : Nat} (hid : id ≠ 1) : ¬ store.repository.Protected 1 id := by
  have hkeeps : ReferenceScan.keeps ⟨[⟨"r1", "v1", 1, 1⟩], [1], true⟩ ⟨"r1", "v1", 1, id⟩ = false := by
    simpa [ReferenceScan.keeps] using hid
  have hunprot : store.repository.Unprotected ("v1" = "v1") 1 id :=
    (unprotected_iff_not_keeps distinctPages (by decide)
      (⟨mem_cons_self, rfl, rfl⟩ : InSweep ["r1"] "v1" [] ⟨"r1", "v1", 1, id⟩)).mpr hkeeps
  rintro (⟨pages, hpages, hreached⟩ | ⟨hempty, -⟩)
  · exact hunprot.2.1 ⟨[page], by decide, by decide⟩ rfl pages hpages hreached
  · exact absurd (hempty [page] (by decide)) (by decide)

/-- A chunk that was passed to a call is neither listed nor collected: when the call was made
during a sweep, and when the next call was made after a sweep had failed. -/
theorem retired_chunk_lost :
    (∃ s, (RetiredChunks.start store).steps use during = some s ∧ 20 ∈ s.accepted ∧
      ¬ Listed use.volumeID s.store 20 ∧ ¬ Settled use.replicaIDs use.volumeID s.store 20) ∧
    ∃ s, (RetiredChunks.start store).steps use after = some s ∧ 10 ∈ s.accepted ∧
      ¬ Listed use.volumeID s.store 10 ∧ ¬ Settled use.replicaIDs use.volumeID s.store 10 := by
  have hlost : ∀ (events : List (RetireEvent Bool Unit)) (id : Nat), id ≠ 1 →
      (((start store).steps use events).any fun s => decide (id ∈ s.accepted ∧
        ¬ Listed use.volumeID s.store id ∧ ⟨"r1", "v1", 1, id⟩ ∈ s.store.objects)) = true →
      ∃ s, (start store).steps use events = some s ∧ id ∈ s.accepted ∧
        ¬ Listed use.volumeID s.store id ∧ ¬ Settled use.replicaIDs use.volumeID s.store id := by
    intro events id hid hrun
    cases hs : (start store).steps use events with
    | none => simp [hs] at hrun
    | some s =>
      rw [hs] at hrun
      obtain ⟨haccepted, hlisted, hmem⟩ := of_decide_eq_true hrun
      refine ⟨s, rfl, haccepted, hlisted, fun hsettled => not_protected hid ?_⟩
      exact (sameRoots_steps hs).protected_iff.mp (hsettled _ hmem mem_cons_self rfl rfl)
  exact ⟨hlost during 20 (by decide) (by decide), hlost after 10 (by decide) (by decide)⟩

def called : RetiredChunks Bool Unit :=
  ((RetiredChunks.start store).steps use (call false)).get (by decide)

def swept : RetiredChunks Bool Unit :=
  (called.steps use (.startSweep () :: List.replicate 15 (.sweep () none) ++ [.endSweep ()])).get
    (by decide)

theorem run_called :
    Relation.ReflTransGen (OrderedStep use) (.start store) called := by
  have hcalled : (start store).steps use (call false) = some called := (some_get _).symm
  obtain ⟨s, hstart, hrest⟩ := bind_eq_some_iff.mp hcalled
  refine .head ⟨.startRetire false, ⟨⟨fun _ => rfl, fun _ => rfl⟩, ?_, ?_⟩, hstart⟩
    (reflTransGen_of_steps ?_ hrest)
  · intro op hop
    cases hop
  · unfold Named
    decide
  intro event hevent
  simp only [mem_cons, not_mem_nil, or_false] at hevent
  rcases hevent with rfl | rfl | rfl | rfl
  all_goals exact fun _ => trivial

theorem run_swept : Relation.ReflTransGen (OrderedStep use) (.start store) swept := by
  have hswept : called.steps use
      (.startSweep () :: replicate 15 (.sweep () none) ++ [.endSweep ()]) = some swept :=
    (some_get _).symm
  obtain ⟨s, hstart, hrest⟩ := bind_eq_some_iff.mp hswept
  have hretire : ∀ e, (called.retire e).isNone = true := by decide
  have hsweep : (called.sweep ()).isNone = true := by decide
  refine run_called.trans (.head ⟨.startSweep (), ⟨?_, ?_⟩, hstart⟩
    (reflTransGen_of_steps ?_ hrest))
  · exact fun e => isNone_iff_eq_none.mp (hretire e)
  · exact fun _ => isNone_iff_eq_none.mp hsweep
  intro event hevent
  rcases mem_append.mp hevent with hevent | hevent
  · rw [eq_of_mem_replicate hevent]
    exact fun _ => trivial
  · rw [mem_singleton.mp hevent]
    exact fun _ => trivial

/-- The chunk that was listed and swept is settled. -/
theorem retired_chunk_accounted :
    Relation.ReflTransGen (RetiredChunks.OrderedStep use) (.start store) swept ∧
      10 ∈ swept.accepted ∧ ¬ Listed use.volumeID swept.store 10 ∧
        (Listed use.volumeID swept.store 10 ∨
          Settled use.replicaIDs use.volumeID swept.store 10) := by
  have haccepted : 10 ∈ swept.accepted := by decide
  exact ⟨run_swept, haccepted, by decide,
    retired_chunks_accounted store distinctPages run_swept 10 haccepted (by decide)⟩

end TwoRetirements

end Namrbd
