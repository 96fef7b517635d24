import Namrbd.Verify.Sequential

/-!
# Sequential runs

Writes and reads of a new volume, one after the other. As long as the ids that the
extent mappings own stay below the chunk id sequence, the volume is a flat array:
every read returns the window of the writes committed before it. Where mappings own
ids that the sequence hands out again, a later write overwrites an earlier one.
-/

namespace Namrbd

open ExtentMappingRecord List

variable {g : Geometry} {size : Nat} {c : Cluster}

section New

variable {extents : List ExtentMappingRecord} {e : ExtentMappingRecord}

theorem ownChunkID_eq (ha : e.Aligned g.chunkSizeBytes) (c : Nat) :
    (e.HasChunk g.chunkSizeBytes c → e.ownChunkID g.chunkSizeBytes c =
        some (if e.chunkID = 0 then 0 else e.chunkID + (c - e.logicalOffset / g.chunkSizeBytes))) ∧
      (¬e.HasChunk g.chunkSizeBytes c → e.ownChunkID g.chunkSizeBytes c = none) := by
  have hpos := g.chunkSizeBytes_pos
  have hend : (e.logicalOffset + e.lengthBytes + g.chunkSizeBytes - 1) / g.chunkSizeBytes =
      e.logicalOffset / g.chunkSizeBytes + e.lengthBytes / g.chunkSizeBytes := by
    rw [div_eq_iff_chunk hpos, Nat.add_mul, Nat.div_mul_cancel ha.start_dvd,
      Nat.div_mul_cancel ha.length_dvd]
    omega
  unfold ownChunkID
  rw [hend, ha.hasChunk_iff hpos]
  constructor
  · exact fun h => if_pos ⟨ha.length_pos.ne', h⟩
  · exact fun h => if_neg fun h' => h h'.2

theorem exists_hasChunk_of_ne_zero (hlay : Layout g size extents) {c : Nat}
    (hid : legacyChunkID g.chunkSizeBytes extents c ≠ 0) :
    ∃ e ∈ extents, e.HasChunk g.chunkSizeBytes c := by
  obtain ⟨e, he, hown⟩ := exists_ownChunkID hid
  refine ⟨e, he, ?_⟩
  by_contra hc
  rw [(ownChunkID_eq (hlay.aligned he) c).2 hc] at hown
  cases hown

theorem legacyChunkID_of_hasChunk (hlay : Layout g size extents) (he : e ∈ extents) {c : Nat}
    (hin : e.HasChunk g.chunkSizeBytes c) :
    legacyChunkID g.chunkSizeBytes extents c =
      if e.chunkID = 0 then 0 else e.chunkID + (c - e.logicalOffset / g.chunkSizeBytes) := by
  have hown := (ownChunkID_eq (hlay.aligned he) c).1 hin
  rcases legacyChunkID_cases g.chunkSizeBytes extents c with ⟨e', he', hown'⟩ | ⟨hnone, -⟩
  · have hin' : e'.HasChunk g.chunkSizeBytes c := by
      by_contra hout
      rw [(ownChunkID_eq (hlay.aligned he') c).2 hout] at hown'
      cases hown'
    rw [hlay.eq_of_hasChunk he' he hin' hin, hown] at hown'
    exact (Option.some.inj hown').symm
  · rw [hnone e he] at hown
    cases hown

/-- A volume as it is created: extents one after the other, no pages, no payload. -/
structure NewVolume (g : Geometry) (size : Nat) (c : Cluster) : Prop where
  layout : Layout g size c.repository.extents
  noPages : c.repository.pages = []
  noPayload : ∀ r e k, c.stores.payload r e k = none

/-- The chunk id sequence starts past the ids that extent mappings own. -/
def OwnIDsBelowSequence (g : Geometry) (m : Repository) : Prop :=
  ∀ e ∈ m.extents, e.chunkID ≠ 0 →
    e.chunkID + e.lengthBytes / g.chunkSizeBytes ≤ m.getNextChunkID

instance (g : Geometry) (m : Repository) : Decidable (OwnIDsBelowSequence g m) :=
  inferInstanceAs (Decidable (∀ e ∈ m.extents, _))

/-- A new volume stands for zeros. -/
theorem NewVolume.represents (h : NewVolume g size c) (hids : OwnIDsBelowSequence g c.repository) :
    Represents g size c.repository c.stores (fun _ => 0) := by
  have hlive : ∀ k, c.repository.liveEntry g k =
      ⟨legacyChunkID g.chunkSizeBytes c.repository.extents k, none⟩ := fun k => by
    rw [Repository.liveEntry, if_pos h.noPages]
  have hin : ∀ e ∈ c.repository.extents, ∀ k, e.HasChunk g.chunkSizeBytes k →
      (c.repository.liveEntry g k).physicalChunkID = if e.chunkID = 0 then 0
        else e.chunkID + (k - e.logicalOffset / g.chunkSizeBytes) := fun e he k hk => by
    rw [hlive, legacyChunkID_of_hasChunk h.layout he hk]
  refine ⟨h.layout, ?_, fun k => by rw [hlive], ?_, ?_, fun _ _ _ _ _ _ _ _ => rfl, ?_,
    fun _ _ r _ k => h.noPayload r _ k, fun r e k _ => h.noPayload r e k⟩
  · intro page hpage
    rw [h.noPages] at hpage
    cases hpage
  · intro k
    by_cases hid : (c.repository.liveEntry g k).physicalChunkID = 0
    · rw [hid]
      exact c.repository.getNextChunkID_pos
    rw [hlive] at hid
    obtain ⟨e, he, hk⟩ := exists_hasChunk_of_ne_zero h.layout hid
    rw [hin e he k hk]
    split
    · exact c.repository.getNextChunkID_pos
    · next hne =>
      have := hids e he hne
      have := ((h.layout.aligned he).hasChunk_iff g.chunkSizeBytes_pos).mp hk
      omega
  · intro e he k k' hk hk' hid heq
    rw [hin e he k hk] at hid heq
    rw [hin e he k' hk'] at heq
    split at heq
    · next hzero => exact (hid (if_pos hzero)).elim
    -- both chunks lie at or after the start of the extent
    rw [(h.layout.aligned he).hasChunk_iff g.chunkSizeBytes_pos] at hk hk'
    omega
  · intro e he k hk hid r hr
    rw [h.noPayload, Option.getD_none, Window.window_const]

end New

/-! ## Runs -/

/-- Calls one after the other that all succeed, from `start` on, with the array that the
committed writes were laid over. Snapshots may come and go in between; `ok` restricts the
writes. -/
inductive SequentialRun (cfg : ExecutorConfig)
    (ok : Cluster → StoreFaults → WriteRequest → Prop) (start : Cluster) :
    Cluster → (Nat → Byte) → Prop
  | start : SequentialRun cfg ok start start fun _ => 0
  | write {c c' : Cluster} {f : Nat → Byte} (h : SequentialRun cfg ok start c f) (now : Nat)
      (faults : StoreFaults) (req : WriteRequest) (resp : WriteResponse) (hok : ok c faults req)
      (hwrite : write cfg now faults c req = (.ok resp, c')) :
      SequentialRun cfg ok start c' (resp.apply req f)
  | read {c : Cluster} {f : Nat → Byte} (h : SequentialRun cfg ok start c f) (faults : StoreFaults)
      (req : ReadRequest) (data : List Byte) (hread : read faults c req = .ok data) :
      SequentialRun cfg ok start c f
  | snapshots {c : Cluster} {f : Nat → Byte} (h : SequentialRun cfg ok start c f)
      (snapshots : List SnapshotRecord)
      (snapshotPages : String → List AllocationPageRecord) :
      SequentialRun cfg ok start
        { c with repository := { c.repository with snapshots, snapshotPages } } f

/-- What a write has to meet, its store calls included. -/
def PlainWrite (g : Geometry) (cfg : ExecutorConfig) (c : Cluster) (faults : StoreFaults)
    (req : WriteRequest) : Prop :=
  faults = .reliable ∧ WriteStep g cfg c req

theorem SequentialRun.represents {cfg : ExecutorConfig} (hasync : cfg.asyncWriteEffects = false)
    {start : Cluster} {f : Nat → Byte} (hnew : NewVolume g size start)
    (hids : OwnIDsBelowSequence g start.repository)
    (hrun : SequentialRun cfg (PlainWrite g cfg) start c f) :
    Represents g size c.repository c.stores f ∧ Blank g c.repository f := by
  induction hrun with
  | start => exact ⟨hnew.represents hids, fun _ _ _ _ _ _ _ _ => rfl⟩
  | write _ now faults req resp hok hwrite ih =>
    obtain ⟨rfl, hstep⟩ := hok
    exact write_represents hasync ih.1 ih.2 hstep hwrite
  | read _ _ _ _ _ ih => exact ih
  | snapshots _ _ _ ih => exact ⟨ih.1.of_same rfl rfl rfl rfl le_rfl, ih.2⟩

/-- Every read of a sequential run returns the bytes of the flat array. -/
theorem sequential_read_eq_window {g : Geometry} {size : Nat} {cfg : ExecutorConfig}
    (hasync : cfg.asyncWriteEffects = false) {start c : Cluster} {f : Nat → Byte}
    (hnew : NewVolume g size start) (hids : OwnIDsBelowSequence g start.repository)
    (hrun : SequentialRun cfg (PlainWrite g cfg) start c f) {faults : StoreFaults}
    {req : ReadRequest} (hpage : req.pageBytes = g.pageBytes)
    (hchunk : req.chunkSizeBytes = g.chunkSizeBytes) {data : List Byte}
    (hread : read faults c req = .ok data) :
    data = Window.window f req.offsetBytes
      (min (req.offsetBytes + req.lengthBytes) size - req.offsetBytes) :=
  (hrun.represents hasync hnew hids).1.read_eq hpage hchunk hread

/-! ## Two chunks with one id -/

namespace LegacyVolume

def geometry : Geometry := ⟨8, 4, by decide, by decide, by decide⟩

def replicaSet : ReplicaSetState :=
  { replicaSetID := "rs", placementRef := "p", epoch := 1
    replicas := [⟨"n1", "r1", .primary, "z"⟩], primaryReplicaID := "r1", writeQuorum := 1 }

/-- A volume of one extent of two chunks, whose mapping owns the ids from `chunkID` on. -/
def cluster (chunkID : Nat) : Cluster :=
  { repository :=
      { volume := some { epoch := 1, revision := 1 }, extents := [⟨1, 0, 8, chunkID, "p", 1⟩]
        replicaSets := [replicaSet] }
    stores := fun r => if r = "r1" then some fun _ _ => none else none }

def request (key : String) (offsetBytes : Nat) (b : Byte) : WriteRequest :=
  { attachmentID := "a", generation := 1, idempotencyKey := key, offsetBytes := offsetBytes
    lengthBytes := 4, data := List.replicate 4 b, pageBytes := 8, chunkSizeBytes := 4 }

/-- The cluster after the first chunk was filled, and after the second. -/
def afterFirst (chunkID : Nat) : Cluster :=
  (write {} 0 .reliable (cluster chunkID) (request "k1" 0 65)).2

@[inherit_doc afterFirst]
def afterSecond (chunkID : Nat) : Cluster :=
  (write {} 0 .reliable (afterFirst chunkID) (request "k2" 4 66)).2

theorem newVolume (chunkID : Nat) : NewVolume geometry 8 (cluster chunkID) where
  layout := by
    refine ⟨⟨rfl, Nat.succ_pos 7, rfl⟩, ?_, ?_, pairwise_singleton _ _⟩
    · intro e he
      rw [mem_singleton.mp he]
      exact ⟨0, rfl⟩
    · intro e he
      rw [mem_singleton.mp he]
      exact ⟨2, rfl⟩
  noPages := rfl
  noPayload := by
    intro r e k
    simp only [cluster, PayloadStores.payload]
    split <;> rfl

theorem run (chunkID : Nat) (ok : Cluster → StoreFaults → WriteRequest → Prop)
    (hfirst : (write {} 0 .reliable (cluster chunkID) (request "k1" 0 65)).1 = .ok ⟨false, true, 2⟩)
    (hsecond : (write {} 0 .reliable (afterFirst chunkID) (request "k2" 4 66)).1 =
      .ok ⟨false, true, 3⟩) (hok : ok (cluster chunkID) .reliable (request "k1" 0 65))
    (hok' : ok (afterFirst chunkID) .reliable (request "k2" 4 66)) :
    SequentialRun {} ok (cluster chunkID) (afterSecond chunkID)
      (Window.patch (Window.patch (fun _ => 0) 0 (List.replicate 4 65)) 4 (List.replicate 4 66)) :=
  ((SequentialRun.start.write 0 .reliable (request "k1" 0 65) _ hok (Prod.ext hfirst rfl)).write 0
    .reliable (request "k2" 4 66) _ hok' (Prod.ext hsecond rfl))

/-- The mapping owns ids that the sequence hands out again: the second chunk is stored under
the id of the first, and the first reads as the second. -/
theorem second_write_overwrites_first : NewVolume geometry 8 (cluster 1) ∧
      ∃ c f, SequentialRun {} (fun _ _ _ => True) (cluster 1) c f ∧
        read .reliable c ⟨0, 8, 8, 4⟩ = .ok (List.replicate 8 66) ∧
        Window.window f 0 8 = List.replicate 4 65 ++ List.replicate 4 66 :=
  ⟨newVolume 1, _, _, run 1 _ (by decide) (by decide) trivial trivial, by decide, by decide⟩

/-- Without ids of its own in the mapping the same run reads back both chunks. -/
theorem read_after_both_writes : OwnIDsBelowSequence geometry (cluster 0).repository ∧
      read .reliable (afterSecond 0) ⟨0, 8, 8, 4⟩ =
        .ok (List.replicate 4 65 ++ List.replicate 4 66) ∧
      List.replicate 4 (65 : Byte) ++ List.replicate 4 66 = Window.window
        (Window.patch (Window.patch (fun _ => 0) 0 (List.replicate 4 65)) 4
          (List.replicate 4 66)) 0 8 := by
  have hok : ∀ c key off b, PlainWrite geometry {} c .reliable (request key off b) :=
    fun c key off b => ⟨rfl, ⟨⟨rfl, rfl⟩, fun h => (Bool.false_ne_true h).elim,
      fun h => (Bool.false_ne_true h).elim⟩⟩
  have hids : OwnIDsBelowSequence geometry (cluster 0).repository := by decide
  have hread : read .reliable (afterSecond 0) ⟨0, 8, 8, 4⟩ =
      .ok (replicate 4 65 ++ replicate 4 66) := by decide
  exact ⟨hids, hread, sequential_read_eq_window rfl (newVolume 0) hids
    (run 0 _ (by decide) (by decide) (hok _ _ _ _) (hok _ _ _ _)) rfl rfl hread⟩

end LegacyVolume

end Namrbd
