import Mathlib.Data.List.Dedup
import Namrbd.Verify.ReferenceScan

/-!
# What a sweep deletes

While the roots stay as they are, whatever accesses fail, a sweep only deletes
objects of its volume and replicas that the roots it scans do not protect
(`sweepVolume_holds`). So what can still be read is safe if the roots a reader
may start from are covered by the roots the sweep scans.
-/

namespace Namrbd

open GC List Process Process.Ensures Repository

variable {scan : ReferenceScan} {act : GCAccess} {t : GCStore} {targetExtentIDs : List Nat}

/-! ## Answers while the roots stay -/

structure Repository.SameRoots (m m' : Repository) : Prop where
  extents : m'.extents = m.extents
  pages : m'.pages = m.pages
  snapshots : m'.snapshots = m.snapshots
  snapshotPages : m'.snapshotPages = m.snapshotPages
  clones : m'.clones = m.clones
  cloneDeltaPages : m'.cloneDeltaPages = m.cloneDeltaPages

theorem Repository.SameRoots.refl (m : Repository) : m.SameRoots m := ⟨rfl, rfl, rfl, rfl, rfl, rfl⟩

/-- What an access can return while the roots are those of `m` and nothing but `stored`
is stored. -/
def GCAccess.Possible (m : Repository) (stored : PayloadKey → Prop) :
    (act : GCAccess) → act.Value → Prop
  | .listExtentMappings, mappings => mappings = m.extents
  | .listAllocationPages, pages => pages = m.pages
  | .listSnapshotRecords, snapshots => snapshots = m.listSnapshotRecords
  | .listSnapshotAllocationPages snapshotID, pages => pages = m.snapshotPages snapshotID
  | .listCloneRecords, clones => clones = m.listCloneRecords
  | .listCloneDeltaAllocationPages cloneID, pages => pages = m.cloneDeltaPages cloneID
  | .listObjects replicaID volumeID, (keys : List PayloadKey) =>
    ∀ key ∈ keys, key.replicaID = replicaID ∧ key.volumeID = volumeID ∧ stored key
  | .hasObject key, (found : Bool) => found = true → stored key
  | _, _ => True

/-- An access fails or returns what it can. -/
def Truthful (m : Repository) (stored : PayloadKey → Prop) (act : GCAccess)
    (ans : Except Err act.Value) : Prop :=
  ∀ value, ans = .ok value → act.Possible m stored value

/-- The roots are those of `m` and nothing but `stored` is stored. -/
structure GCStore.Shows (m : Repository) (stored : PayloadKey → Prop) (s : GCStore) : Prop where
  roots : m.SameRoots s.repository
  objects : ∀ key ∈ s.objects, stored key

section Shows

variable {m : Repository} {stored : PayloadKey → Prop} {s : GCStore}

theorem GCStore.Shows.truthful_handle (h : s.Shows m stored) (act : GCAccess) :
    Truthful m stored act (s.handle act).1 := by
  have hroots := h.roots
  have hsnaps : s.repository.listSnapshotRecords = m.listSnapshotRecords := by
    unfold listSnapshotRecords
    rw [hroots.snapshots]
  have hclones : s.repository.listCloneRecords = m.listCloneRecords := by
    unfold listCloneRecords
    rw [hroots.clones]
  intro value hvalue
  cases act with
  | listExtentMappings => cases hvalue; exact hroots.extents
  | listAllocationPages => cases hvalue; exact hroots.pages
  | listSnapshotRecords => cases hvalue; exact hsnaps
  | listSnapshotAllocationPages snapshotID => cases hvalue; exact congrFun hroots.snapshotPages _
  | listCloneRecords => cases hvalue; exact hclones
  | listCloneDeltaAllocationPages cloneID =>
    cases hvalue
    exact congrFun hroots.cloneDeltaPages _
  | listObjects replicaID volumeID =>
    cases hvalue
    intro key hkey
    obtain ⟨hmem, hsame⟩ := mem_filter.mp hkey
    simp only [Bool.and_eq_true, beq_iff_eq] at hsame
    exact ⟨hsame.1, hsame.2, h.objects key hmem⟩
  | hasObject key =>
    cases hvalue
    exact fun hfound => h.objects key (of_decide_eq_true hfound)
  | _ => trivial

theorem GCStore.Shows.handle (h : s.Shows m stored) (act : GCAccess) :
    (s.handle act).2.Shows m stored := by
  cases act with
  | putMutationOperation record =>
    have hroots := h.roots
    exact ⟨⟨hroots.extents, hroots.pages, hroots.snapshots, hroots.snapshotPages, hroots.clones,
      hroots.cloneDeltaPages⟩, h.objects⟩
  | deleteObject key =>
    exact ⟨h.roots, fun key' hkey' => h.objects key' (mem_of_mem_filter hkey')⟩
  | _ => exact h

/-- An access that fails has no effect or its own. -/
theorem GCStore.Answers.state {ans : Except Err act.Value} (h : GCStore.Answers act s ans t)
    (I : GCStore → Prop) (hs : I s) (hafter : I (s.handle act).2) :
    I t := by
  rcases h with h | ⟨-, -, rfl | rfl⟩
  · rw [h] at hafter
    exact hafter
  · exact hs
  · exact hafter

/-- A faulty access still returns nothing but what it can, and leaves the roots alone. -/
theorem GCStore.Shows.answers {ans : Except Err act.Value} (h : s.Shows m stored)
    (hans : GCStore.Answers act s ans t) :
    Truthful m stored act ans ∧ t.Shows m stored := by
  refine ⟨?_, hans.state _ h (h.handle act)⟩
  rcases hans with hans | ⟨err, rfl, -⟩
  · have htruthful := h.truthful_handle act
    rw [hans] at htruthful
    exact htruthful
  · exact nofun

end Shows

section Accesses

variable (m : Repository) (stored : PayloadKey → Prop) (replicaIDs : List String)
  (spelling volumeID : String)

def Sweepable (key : PayloadKey) : Prop :=
  key.replicaID ∈ replicaIDs ∧ key.volumeID = volumeID ∧ stored key ∧
    m.Unprotected (spelling = volumeID) key.extentID key.chunkID

/-- The accesses a sweep may make: any but the deletion of a protected object. -/
def MayAccess : GCAccess → Prop
  | .deleteObject key => Sweepable m stored replicaIDs spelling volumeID key
  | _ => True

/-- Between its begin and its end a sweep leaves the volume's operation alone as well. -/
def MayAccessBatch : GCAccess → Prop
  | .deleteObject key => Sweepable m stored replicaIDs spelling volumeID key
  | .getMutationOperation operationID => operationID ≠ payloadGCMutationOperationID volumeID
  | .putMutationOperation record => record.operationID ≠ payloadGCMutationOperationID volumeID
  | _ => True

/-- A program between the begin and the end of a sweep, while the roots stay: it keeps to
the accesses it may make, and a result satisfies `post`. -/
abbrev SweepEnsures {α : Type} (x : GC α) (post : α → Prop) : Prop :=
  Process.Ensures (Truthful m stored) (MayAccessBatch m stored replicaIDs spelling volumeID) x post

/-- A program of the sweep that handles its errors. -/
abbrev SweepHolds {α : Type} (p : GCProcess α) (post : α → Prop) : Prop :=
  p.Holds (Truthful m stored) (MayAccess m stored replicaIDs spelling volumeID) post

variable {m stored replicaIDs spelling volumeID} {replicaID : String}

theorem payloadGCBatchMutationOperationID_ne (volumeID : String) (batchIndex : Nat) :
    payloadGCBatchMutationOperationID volumeID batchIndex ≠ payloadGCMutationOperationID volumeID := by
  intro h
  have hlen := congrArg String.length h
  simp only [payloadGCBatchMutationOperationID, String.length_append] at hlen
  have hbatch : "-batch-".length = 7 := rfl
  omega

theorem GC.access_ensures (h : MayAccessBatch m stored replicaIDs spelling volumeID act) :
    SweepEnsures m stored replicaIDs spelling volumeID (access act) (act.Possible m stored) :=
  ⟨h, fun _ hans => hans⟩

section Operations

variable {allowed : GCAccess → Prop}

theorem GC.attempt_holds (h : allowed act) :
    (attempt act).Holds (Truthful m stored) allowed (Truthful m stored act) :=
  ⟨h, fun _ hans => hans⟩

theorem trackOperation_holds {record : MutationOperationRecord}
    (h : allowed (.putMutationOperation record)) :
    (trackOperation record).Holds (Truthful m stored) allowed
      fun operation => ∀ op, operation = some op → op = record := by
  refine .bind (attempt_holds h) ?_
  rintro (err | ⟨⟩) -
  · exact nofun
  · exact fun _ hop => (Option.some.inj hop).symm

theorem failOperation_holds {operation : Option MutationOperationRecord} (err : Err)
    (h : ∀ op, operation = some op → allowed (.putMutationOperation
      { op with state := .failed, errorMessage := err.message })) :
    (failOperation operation err).Holds (Truthful m stored) allowed fun _ => True := by
  cases operation with
  | none => trivial
  | some operation => exact .bind (attempt_holds (h operation rfl)) fun _ _ => trivial

end Operations

theorem beginSweepMutationOperation_holds :
    SweepHolds m stored replicaIDs spelling volumeID (beginSweepMutationOperation volumeID)
      fun _ => True := by
  refine .bind (attempt_holds trivial) ?_
  rintro (err | state) -
  · trivial
  refine .bind (attempt_holds trivial) ?_
  rintro (err | operation) -
  · cases err with
    | notFound => exact (trackOperation_holds trivial).mono fun _ _ => trivial
    | _ => trivial
  · exact (trackOperation_holds trivial).mono fun _ _ => trivial

/-- The operation of a batch is not the volume's. -/
theorem beginSweepBatchMutationOperation_holds (parent : Option MutationOperationRecord)
    (batch : PayloadGCChunkBatch) :
    (beginSweepBatchMutationOperation volumeID parent batch).Holds (Truthful m stored)
      (MayAccessBatch m stored replicaIDs spelling volumeID)
      fun operation => ∀ op, operation = some op →
        op.operationID ≠ payloadGCMutationOperationID volumeID := by
  have hne := payloadGCBatchMutationOperationID_ne volumeID batch.batchIndex
  unfold beginSweepBatchMutationOperation
  by_cases hnone : batch.chunkIDs = []
  · rw [if_pos hnone]
    exact nofun
  rw [if_neg hnone]
  refine .bind (attempt_holds hne) ?_
  rintro (err | operation) -
  · cases err with
    | notFound =>
      refine (trackOperation_holds hne).mono fun _ htracked op hop => ?_
      rw [htracked op hop]
      exact hne
    | _ => exact nofun
  · dsimp only
    split
    · exact nofun
    · refine (trackOperation_holds hne).mono fun _ htracked op hop => ?_
      rw [htracked op hop]
      exact hne

theorem sweepTargetExtentIDs_ensures (operation : Option MutationOperationRecord) :
    SweepEnsures m stored replicaIDs spelling volumeID (sweepTargetExtentIDs operation)
      fun _ => True := by
  unfold sweepTargetExtentIDs
  dsimp only
  split
  · refine .bind (access_ensures trivial) ?_
    intro mappings _
    refine Ensures.bind (GC.access_ensures trivial) ?_
    intro pages _
    exact .pure trivial
  · exact .pure trivial

/-! ### The scan -/

def scanned (targetExtentIDs : List Nat) (m : Repository) (replicaIDs : List String)
    (spelling : String) (roots : List (List AllocationPageRecord)) : Except Err ReferenceScan :=
  roots.foldlM (ReferenceScan.addRoot replicaIDs spelling m.extents targetExtentIDs)
    (.start m.extents targetExtentIDs)

/-- A logic of programs in which the roots can be read and scanned. -/
structure ScanLogic (m : Repository) (stored : PayloadKey → Prop) (replicaIDs : List String)
    (spelling volumeID : String) (targetExtentIDs : List Nat)
    (P : (α : Type) → GC α → (α → Prop) → Prop) : Prop where
  pure : ∀ {α} {a : α} {post : α → Prop}, post a → P α (Pure.pure a) post
  bind : ∀ {α β} {x : GC α} {f : α → GC β} {post : α → Prop} {post' : β → Prop},
    P α x post → (∀ a, post a → P β (f a) post') → P β (x >>= f) post'
  read : ∀ act, MayAccessBatch m stored replicaIDs spelling volumeID act →
    (∀ s : GCStore, ∃ value, s.handle act = (.ok value, s)) →
      P _ (access act) (act.Possible m stored)
  addRoot : ∀ pages ∈ m.scannedRoots, ∀ (scan : ReferenceScan) (post : ReferenceScan → Prop),
    (∀ scan', scan.addRoot replicaIDs spelling m.extents targetExtentIDs pages = .ok scan' →
      post scan') →
    P _ (ExceptT.mk (Pure.pure
      (scan.addRoot replicaIDs spelling m.extents targetExtentIDs pages))) post

namespace ScanLogic

variable {P : (α : Type) → GC α → (α → Prop) → Prop}
  (hP : ScanLogic m stored replicaIDs spelling volumeID targetExtentIDs P)

include hP

theorem addRoot_read (roots : List (List AllocationPageRecord))
    {pages : List AllocationPageRecord} {read : GC (List AllocationPageRecord)}
    (hread : P _ read (· = pages)) (hmem : pages ∈ m.scannedRoots)
    (hscan : scanned targetExtentIDs m replicaIDs spelling roots = .ok scan) :
    P _ (read >>= fun pages => ExceptT.mk
        (Pure.pure (scan.addRoot replicaIDs spelling m.extents targetExtentIDs pages)))
      fun scan' => scanned targetExtentIDs m replicaIDs spelling (roots ++ [pages]) = .ok scan' := by
  refine hP.bind hread ?_
  rintro pages rfl
  refine hP.addRoot pages hmem scan _ fun scan' hscan' => ?_
  unfold scanned at hscan ⊢
  rw [foldlM_append, hscan, Result.ok_bind, foldlM_cons, hscan']
  rfl

theorem foldlM_addRoot {α : Type} {l : List α} {roots : List (List AllocationPageRecord)}
    {pages : α → List AllocationPageRecord} {read : α → GC (List AllocationPageRecord)}
    (hread : ∀ a, P _ (read a) (· = pages a)) (hmem : ∀ a ∈ l, pages a ∈ m.scannedRoots)
    (hscan : scanned targetExtentIDs m replicaIDs spelling roots = .ok scan) :
    P _ (l.foldlM (fun scan a => read a >>= fun pages => ExceptT.mk
        (Pure.pure (scan.addRoot replicaIDs spelling m.extents targetExtentIDs pages))) scan)
      fun scan' => scanned targetExtentIDs m replicaIDs spelling (roots ++ l.map pages) =
        .ok scan' := by
  refine Result.foldlM_induction (fun x post s => P _ x (post · s))
    (fun _ _ _ _ s h hf => hP.bind h (hf · s)) (fun finished scan _ => scanned targetExtentIDs m
      replicaIDs spelling (roots ++ finished.map pages) = .ok scan) (fun _ _ h => hP.pure h)
    (by simpa using hscan) ?_ (s := ())
  intro finished a rest scan _ hl hscan
  have hstep := hP.addRoot_read _ (hread a) (hmem a (by simp [hl])) hscan
  simpa using hstep

theorem referencedPayloadKeys : P _ (referencedPayloadKeys replicaIDs spelling targetExtentIDs)
    fun scan => scanRoots replicaIDs spelling targetExtentIDs m = .ok scan := by
  refine hP.bind (hP.read _ trivial fun _ => ⟨_, rfl⟩) ?_
  rintro mappings rfl
  refine hP.bind (hP.read _ trivial fun _ => ⟨_, rfl⟩) ?_
  rintro pages rfl
  refine hP.bind (hP.addRoot_read [] (hP.pure rfl) mem_cons_self rfl) ?_
  intro scan hscan
  refine hP.bind (hP.read _ trivial fun _ => ⟨_, rfl⟩) ?_
  rintro snapshots rfl
  refine hP.bind (hP.foldlM_addRoot (fun _ => ?_)
    (fun _ hsnap => mem_append_left _ (mem_cons_of_mem _ (mem_map_of_mem hsnap))) hscan) ?_
  · exact hP.read (.listSnapshotAllocationPages _) trivial fun _ => ⟨_, rfl⟩
  intro scan hscan
  refine hP.bind (hP.read _ trivial fun _ => ⟨_, rfl⟩) ?_
  rintro clones rfl
  refine hP.foldlM_addRoot (fun _ => ?_)
    (fun _ hclone => mem_append_right _ (mem_map_of_mem hclone)) hscan
  exact hP.read (.listCloneDeltaAllocationPages _) trivial fun _ => ⟨_, rfl⟩

end ScanLogic

theorem scanLogic_ensures : ScanLogic m stored replicaIDs spelling volumeID targetExtentIDs
    fun _ => SweepEnsures m stored replicaIDs spelling volumeID where
  pure := .pure
  bind := .bind
  read _ hact _ := access_ensures hact
  addRoot _ _ _ _ hpost := hpost

/-! ### Candidates -/

def Candidates (stored : PayloadKey → Prop) (replicaIDs : List String) (volumeID : String)
    (targetExtentIDs : List Nat) (keys : List PayloadKey) : Prop :=
  ∀ key ∈ keys, InSweep replicaIDs volumeID targetExtentIDs key ∧ stored key

theorem isTarget_of_mem {extentID : Nat} (h : extentID ∈ targetExtentIDs) :
    isTarget targetExtentIDs extentID = true := by
  simp [isTarget, h]

theorem listExactChunkCandidateKeys_ensures (hrepl : replicaID ∈ replicaIDs)
    (targetExtentIDs targetChunkIDs : List Nat) :
    SweepEnsures m stored replicaIDs spelling volumeID
      (listExactChunkCandidateKeys replicaID volumeID targetExtentIDs targetChunkIDs)
      (Candidates stored replicaIDs volumeID targetExtentIDs) := by
  unfold listExactChunkCandidateKeys
  by_cases hall : targetExtentIDs = []
  · subst hall
    refine foldlM_of_forall _ nofun fun chunkID _ keys hkeys => ?_
    refine .bind (access_ensures trivial) ?_
    intro found hfound
    refine .pure (forall_mem_append.mpr ⟨hkeys, fun key hkey => ?_⟩)
    obtain ⟨hreplicaID, hvolumeID, hstored⟩ := hfound key (mem_of_mem_filter hkey)
    exact ⟨⟨hreplicaID ▸ hrepl, hvolumeID, rfl⟩, hstored⟩
  · rw [if_neg hall]
    refine foldlM_of_forall _ nofun fun key hkey keys hkeys => ?_
    refine .bind (access_ensures trivial) ?_
    intro found hfound
    apply Ensures.pure
    split
    · next htrue =>
      refine forall_mem_append.mpr ⟨hkeys, fun key' hkey' => ?_⟩
      obtain ⟨chunkID, -, extentID, hext, rfl⟩ :
          ∃ chunkID ∈ targetChunkIDs, ∃ extentID ∈ targetExtentIDs,
            (⟨replicaID, volumeID, extentID, chunkID⟩ : PayloadKey) = key := by
        simpa using hkey
      rw [mem_singleton.mp hkey']
      exact ⟨⟨hrepl, rfl, isTarget_of_mem hext⟩, hfound htrue⟩
    · exact hkeys

theorem listCandidatePayloadKeys_ensures (hrepl : replicaID ∈ replicaIDs)
    (targetExtentIDs targetChunkIDs : List Nat) :
    SweepEnsures m stored replicaIDs spelling volumeID
      (listCandidatePayloadKeys replicaID volumeID targetExtentIDs targetChunkIDs)
      (Candidates stored replicaIDs volumeID targetExtentIDs) := by
  unfold listCandidatePayloadKeys
  by_cases hchunks : targetChunkIDs ≠ []
  · rw [if_pos hchunks]
    exact listExactChunkCandidateKeys_ensures hrepl targetExtentIDs targetChunkIDs
  rw [if_neg hchunks]
  by_cases hall : targetExtentIDs = []
  · subst hall
    refine Holds.mono (access_ensures trivial) ?_
    intro found hfound keys hkeys key hkey
    obtain ⟨hreplicaID, hvolumeID, hstored⟩ := hfound keys hkeys key hkey
    exact ⟨⟨hreplicaID ▸ hrepl, hvolumeID, rfl⟩, hstored⟩
  · rw [if_neg hall]
    refine foldlM_of_forall _ nofun fun extentID hext keys hkeys => ?_
    refine .bind (access_ensures trivial) ?_
    intro found hfound
    refine .pure (forall_mem_append.mpr ⟨hkeys, fun key hkey => ?_⟩)
    obtain ⟨hmem, hsame⟩ := mem_filter.mp hkey
    obtain ⟨hreplicaID, hvolumeID, hstored⟩ := hfound key hmem
    refine ⟨⟨hreplicaID ▸ hrepl, hvolumeID, isTarget_of_mem ?_⟩, hstored⟩
    rw [beq_iff_eq.mp hsame]
    exact hext

section Deletions

section

variable (hdistinct : ∀ pages ∈ m.scannedRoots, DistinctPages pages)

include hdistinct

section

variable (hscan : scanRoots replicaIDs spelling targetExtentIDs m = .ok scan)

include hscan

theorem sweepBatch_ensures (operation : Option MutationOperationRecord) (hintedChunkIDs : List Nat)
    (progress : SweepProgress) (batch : PayloadGCChunkBatch) :
    SweepEnsures m stored replicaIDs spelling volumeID
      (sweepBatch volumeID replicaIDs operation targetExtentIDs hintedChunkIDs scan progress batch)
      fun _ => True := by
  refine .bind (.lift (beginSweepBatchMutationOperation_holds _ _)) ?_
  intro batchOperation hbatch
  have hreplicas : SweepEnsures m stored replicaIDs spelling volumeID (replicaIDs.foldlM
      (sweepReplica volumeID targetExtentIDs hintedChunkIDs scan batch) progress) fun _ => True := by
    refine foldlM_of_forall _ trivial fun replicaID hrepl progress _ => ?_
    refine .bind (listCandidatePayloadKeys_ensures hrepl _ _) ?_
    intro keys hkeys
    refine foldlM_of_forall _ trivial fun key hkey progress _ => ?_
    obtain ⟨hin, hstored⟩ := hkeys key (mem_dedup.mp ((mem_insertionSort _).mp hkey))
    unfold sweepCandidate
    split
    · exact .pure trivial
    split
    · exact .pure trivial
    next hkeeps =>
      have hunprot := (unprotected_iff_not_keeps hdistinct hscan hin).mpr
        (Bool.eq_false_iff.mpr hkeeps)
      refine .bind (access_ensures ⟨hin.1, hin.2.1, hstored, hunprot⟩) ?_
      intro _ _
      split
      · exact .pure trivial
      · exact .pure trivial
  refine .bind (.lift hreplicas) ?_
  rintro (err | progress) -
  · exact .bind (.lift (failOperation_holds err fun op hop => hbatch op hop))
      nofun
  cases batchOperation with
  | none => exact .pure trivial
  | some batchOperation =>
    exact .bind (.lift (attempt_holds (hbatch batchOperation rfl))) fun _ _ => .pure trivial

end

theorem sweepTargets_ensures (chunkBatchSize : Nat) (operation : Option MutationOperationRecord) :
    SweepEnsures m stored replicaIDs spelling volumeID
      (sweepTargets chunkBatchSize replicaIDs spelling volumeID operation) fun _ => True := by
  refine .bind (sweepTargetExtentIDs_ensures operation) ?_
  intro targetExtentIDs _
  refine .bind scanLogic_ensures.referencedPayloadKeys ?_
  intro scan hscan
  refine .bind (access_ensures trivial) ?_
  intro operations _
  have hbatches : ∀ batches : List PayloadGCChunkBatch,
      SweepEnsures m stored replicaIDs spelling volumeID
      (batches.foldlM (sweepBatch volumeID replicaIDs operation targetExtentIDs
        (retiredPayloadHintChunkIDs operations) scan)
        { results := replicaIDs.map fun replicaID => { replicaID }, deletedChunkIDs := [] })
      fun _ => True := fun batches =>
    foldlM_of_forall _ trivial fun batch _ progress _ =>
      sweepBatch_ensures hdistinct hscan operation _ progress batch
  split
  · exact hbatches _
  · exact .bind (.lift (attempt_holds trivial)) fun operations _ => hbatches _

theorem sweepVolume_holds (chunkBatchSize : Nat) :
    SweepHolds m stored replicaIDs spelling volumeID
      (sweepVolume chunkBatchSize replicaIDs spelling volumeID) fun _ => True := by
  apply Holds.bind beginSweepMutationOperation_holds
  intro operation _
  have htargets : SweepEnsures m stored replicaIDs spelling volumeID
      (sweepTargets chunkBatchSize replicaIDs spelling volumeID operation) fun _ => True :=
    sweepTargets_ensures hdistinct chunkBatchSize operation
  refine .bind (htargets.imp fun act h => ?_) ?_
  · cases act with
    | deleteObject key => exact h
    | _ => trivial
  rintro (err | progress) -
  · exact .bind (failOperation_holds err fun _ _ => trivial) fun _ _ => trivial
  cases operation with
  | none => trivial
  | some operation =>
    refine .bind (attempt_holds trivial) ?_
    rintro (err | ⟨⟩) -
    · trivial
    · trivial

end

end Deletions

end Accesses

/-! ## Reachable objects -/

/-- The roots a reader may start from: the live pages, the pages of a snapshot, the base
and the delta of a clone, as long as they are not deleted. -/
def Repository.readRoots (m : Repository) : List (List AllocationPageRecord) :=
  m.pages :: (m.listSnapshotRecords.map fun snapshot => m.snapshotPages snapshot.snapshotID) ++
    m.listCloneRecords.flatMap fun clone =>
      [m.snapshotPages clone.cloneBaseRootID, m.cloneDeltaPages clone.cloneID]

/-- The object is mapped from a root a reader may start from. -/
def Repository.Reachable (m : Repository) (extentID id : Nat) : Prop :=
  ∃ pages ∈ m.readRoots, ReachedBy m.extents pages extentID id

/-- What a reader may reach of the stored objects is reached by a root the sweep scans, and the
volume is spelled as in their keys, if the scan goes through and finds pages at all. -/
def Repository.Covers (m : Repository) (stored : PayloadKey → Prop) (replicaIDs : List String)
    (spelling volumeID : String) : Prop :=
  (∀ pages ∈ m.scannedRoots, UniformGeometry pages) → (∃ pages ∈ m.scannedRoots, pages ≠ []) →
    ∀ key, stored key → key.replicaID ∈ replicaIDs → key.volumeID = volumeID →
      m.Reachable key.extentID key.chunkID → spelling = volumeID ∧
        ∃ pages ∈ m.scannedRoots, ReachedBy m.extents pages key.extentID key.chunkID

theorem Repository.Covers.not_reachable {m : Repository} {stored : PayloadKey → Prop}
    {replicaIDs : List String} {spelling volumeID : String}
    (h : m.Covers stored replicaIDs spelling volumeID) {key : PayloadKey}
    (hkey : Sweepable m stored replicaIDs spelling volumeID key) :
    ¬ m.Reachable key.extentID key.chunkID := by
  obtain ⟨hrepl, hvol, hstored, huniform, hnat, hlegacy⟩ := hkey
  intro hreach
  by_cases hsome : ∃ pages ∈ m.scannedRoots, pages ≠ []
  · obtain ⟨hspelled, pages, hpages, hreached⟩ := h huniform hsome key hstored hrepl hvol hreach
    exact hnat hsome hspelled pages hpages hreached
  -- no page anywhere: a reachable object belongs to a mapped extent
  obtain ⟨pages, -, mapping, hmap, hext, -⟩ := hreach
  refine hlegacy (fun pages hpages => ?_) mapping hmap hext
  by_contra hne
  exact hsome ⟨pages, hpages, hne⟩

end Namrbd
