import Namrbd.Replication.QuorumEarly
import Namrbd.Verify.ReplicaServer
import Namrbd.Verify.InFlight
import Namrbd.Verify.FlatVolume
import Namrbd.Verify.WriterFrame

/-!
# Reading after writes that return at quorum

A read goes to the first replica that answers. A replica that the acknowledged write
has not reached yet, or that an earlier replica write reached after it, has older
bytes. Where the last replica write that reached an object of the range was one of the
acknowledged write, or of a later one, and succeeded, a read returns their bytes
(`read_current`).
-/

namespace Namrbd

open Function List Option Result Window

namespace QuorumCluster

variable {g : Geometry} {size : Nat}

section Read

variable {sessions : String → Option RemoteSession} {down : String → Bool} {s : QuorumCluster}
  {entry : Nat → ChunkEntry} {p : ExtentReadPlan} {start n : Nat}

/-- A server that a read of the plan may ask. -/
def Reachable (sessions : String → Option RemoteSession) (down : String → Bool)
    (p : ExtentReadPlan) (server : String) : Prop :=
  ∃ target ∈ p.preferred :: p.fallbacks, ∃ session,
    remoteReplicaForTarget sessions target = some session ∧ session.server = server ∧
      down server = false

theorem remoteReplicaForTarget_reader (target : ReplicaTarget) :
    remoteReplicaForTarget (s.reader sessions down).replicas target =
      (remoteReplicaForTarget sessions target).map fun session =>
        ⟨session.replicaID, (s.servers session.server).client (down session.server)⟩ := by
  unfold remoteReplicaForTarget reader
  rw [map_or]
  congr 1
  split
  · rfl
  · rfl

variable {data : List Byte} {replicaID : String}

theorem readTargets_array (hsize : ∀ v, (s.servers v).chunkSizeBytes = g.chunkSizeBytes)
    (hcs : p.chunkSizeBytes = g.chunkSizeBytes) {need : Nat → Prop}
    (hpages : PlanPages g entry need p.allocationPages) (hn : 0 < n)
    (hneed : ∀ c, Hits g.chunkSizeBytes start n c → need c)
    (hplain : ∀ c, (entry c).encryption = none) {targets : List ReplicaTarget}
    {lastErr : Option ClientErr}
    (h : (s.reader sessions down).readTargets p start n targets false lastErr =
      .ok (data, replicaID)) :
    ∃ target ∈ targets, ∃ session, remoteReplicaForTarget sessions target = some session ∧
      data = window ((s.servers session.server).array entry) start n ∧
      ∀ c, Hits g.chunkSizeBytes start n c → (entry c).physicalChunkID ≠ 0 →
        down session.server = false := by
  induction targets generalizing lastErr with
  | nil => simp [RemoteReplicaReader.readTargets] at h
  | cons target targets ih =>
    rw [RemoteReplicaReader.readTargets, remoteReplicaForTarget_reader] at h
    cases hsess : remoteReplicaForTarget sessions target with
    | none =>
      simp only [hsess, map_none] at h
      obtain ⟨target', hmem, hfound⟩ := ih h
      exact ⟨target', mem_cons_of_mem _ hmem, hfound⟩
    | some session =>
      simp only [hsess, map_some] at h
      obtain ⟨result, hresult, hok, herr⟩ := readViaChunkAwareRPC_array session.replicaID
        (down session.server) (hsize session.server) hcs hpages hn hneed
        hplain
      rw [hresult] at h
      cases result with
      | ok data' =>
        cases h
        exact ⟨target, mem_cons_self, session, hsess, hok _ rfl⟩
      | error failure =>
        obtain ⟨missing, err⟩ := failure
        simp only [herr missing err rfl, Bool.or_false] at h
        obtain ⟨target', hmem, hfound⟩ := ih h
        exact ⟨target', mem_cons_of_mem _ hmem, hfound⟩

/-- A byte that a read may return: zero for a chunk without an object, else the byte of a
server that answers. -/
def Shown (g : Geometry) (sessions : String → Option RemoteSession) (down : String → Bool)
    (s : QuorumCluster) (p : ExtentReadPlan) (i : Nat) (b : Byte) : Prop :=
  ((s.repository.liveEntry g (i / g.chunkSizeBytes)).physicalChunkID = 0 ∧ b = 0) ∨
    (s.repository.liveEntry g (i / g.chunkSizeBytes)).physicalChunkID ≠ 0 ∧
      ∃ server, Reachable sessions down p server ∧
        b = (s.servers server).array (s.repository.liveEntry g) i

section

variable (hsound : s.repository.Sound g size)
  (hsize : ∀ v, (s.servers v).chunkSizeBytes = g.chunkSizeBytes)

include hsound hsize

/-- The same for one extent. -/
theorem readExtent_shown {req : ReadRequest}
    (hplan : IsReadPlan g s.repository req.offsetBytes req.lengthBytes p)
    (hin : p.extent ∈ s.repository.extents) (hlen : 0 < req.lengthBytes)
    (hov : p.extent.overlaps req.offsetBytes req.lengthBytes = true)
    (h : (s.reader sessions down).readExtent p req = .ok (data, replicaID)) :
    IsPart (fun i b => p.extent.Touched g.chunkSizeBytes req.offsetBytes req.lengthBytes
        (i / g.chunkSizeBytes) ∧ Shown g sessions down s p i b)
      req.offsetBytes req.lengthBytes p.extent data := by
  have hpos := g.chunkSizeBytes_pos
  have ha := hsound.layout.aligned hin
  have hn := Nat.sub_pos_of_lt (overlap_pos ha.length_pos hlen hov)
  have hpages := hplan.pages.touched ha
  unfold RemoteReplicaReader.readExtent at h
  rw [overlapRange_of_overlaps hov] at h
  dsimp only at h
  split at h
  · -- no chunk of the part has an object
    next hzero =>
    cases h
    refine ⟨length_replicate, fun k b hk => ?_⟩
    obtain ⟨hlt, rfl⟩ := List.getElem?_eq_some_iff.mp hk
    rw [length_replicate] at hlt
    have hhits := hits_div hpos (Nat.le_add_right (max req.offsetBytes p.extent.logicalOffset) k)
      (Nat.add_lt_add_left hlt _)
    have htouch := (hits_overlap_iff hpos ha hlen hov).mp hhits
    refine ⟨htouch, .inl ⟨?_, getElem_replicate _⟩⟩
    unfold readRangeSatisfiedByZeroAllocation at hzero
    split at hzero
    · cases hzero
    rw [hplan.chunkSizeBytes_eq] at hzero
    have hz := all_eq_true.mp hzero _ ((mem_touchedChunks hpos hn).mpr hhits)
    rw [hpages.logicalChunkAllocationRecord_eq htouch] at hz
    simpa [ChunkEntry.allocation] using hz
  · obtain ⟨target, hmem, session, hsess, rfl, hup⟩ := readTargets_array hsize
      hplan.chunkSizeBytes_eq hpages hn (fun _ => (hits_overlap_iff hpos ha hlen hov).mp)
      hsound.plain h
    refine ⟨length_window _ _ _, fun k b hk => ?_⟩
    rw [getElem?_window] at hk
    simp only [ite_none_right_eq_some, some.injEq] at hk
    obtain ⟨hlt, rfl⟩ := hk
    have hhits := hits_div hpos (Nat.le_add_right (max req.offsetBytes p.extent.logicalOffset) k)
      (Nat.add_lt_add_left hlt _)
    refine ⟨(hits_overlap_iff hpos ha hlen hov).mp hhits, ?_⟩
    by_cases hid : (s.repository.liveEntry g ((max req.offsetBytes p.extent.logicalOffset + k) /
        g.chunkSizeBytes)).physicalChunkID = 0
    · refine .inl ⟨hid, ?_⟩
      have hchunk := (div_eq_iff_chunk hpos
        (i := max req.offsetBytes p.extent.logicalOffset + k)).mp rfl
      rw [← hsize session.server] at hchunk hpos hid
      exact array_of_zero hpos hid hchunk.1 hchunk.2
    · exact .inr ⟨hid, session.server, ⟨target, hmem, session, hsess, rfl, hup _ hhits hid⟩, rfl⟩

/-- A read returns what the objects of one replica for each chunk show. -/
theorem read_shown {req : ReadRequest} (hpage : req.pageBytes = g.pageBytes)
    (hchunk : req.chunkSizeBytes = g.chunkSizeBytes) (h : s.read sessions down req = .ok data) :
    ∃ plans, planRead s.repository req.offsetBytes req.lengthBytes req.pageBytes
        req.chunkSizeBytes = .ok plans ∧
      data.length = min (req.offsetBytes + req.lengthBytes) size - req.offsetBytes ∧
      ∀ k b, data[k]? = some b → ∃ p ∈ plans, p.extent ∈ s.repository.extents ∧
        p.extent.Touched g.chunkSizeBytes req.offsetBytes req.lengthBytes
          ((req.offsetBytes + k) / g.chunkSizeBytes) ∧
        Shown g sessions down s p (req.offsetBytes + k) b := by
  unfold read at h
  split at h
  · cases h
  next plans hplans =>
  refine ⟨plans, hplans, ?_⟩
  obtain ⟨parts, hparts, h⟩ := bind_eq_ok.mp h
  cases h
  rw [hpage, hchunk] at hplans
  rcases Nat.eq_zero_or_pos req.lengthBytes with hlen | hlen
  · rw [plan_empty hlen hplans] at hparts
    cases hparts
    refine ⟨?_, by simp⟩
    change 0 = _
    omega
  · obtain ⟨hexts, heach⟩ := planRead_ok hsound.pagesWF
      (fun e he => (aligned_of_overlapped hsound.layout e he).length_pos) hlen hplans
    have hmem : ∀ p ∈ plans, p.extent ∈ s.repository.extents ∧
        p.extent.overlaps req.offsetBytes req.lengthBytes = true := fun p hp =>
      mem_overlapped.mp (hexts ▸ mem_map_of_mem hp)
    have hisPart : Forall₂ (IsPart (fun i b => ∃ p ∈ plans,
          p.extent ∈ s.repository.extents ∧ p.extent.Touched g.chunkSizeBytes req.offsetBytes
            req.lengthBytes (i / g.chunkSizeBytes) ∧ Shown g sessions down s p i b)
        req.offsetBytes req.lengthBytes)
        (s.repository.overlapped req.offsetBytes req.lengthBytes) parts := by
      rw [← hexts, forall₂_map_left_iff]
      have hrel := (forall₂_and_left _ _).mpr ⟨fun p hp => hp, mapM_eq_ok.mp hparts⟩
      refine hrel.imp fun p part ⟨hp, hread⟩ => ?_
      obtain ⟨⟨data, replicaID⟩, hone, hpart⟩ := bind_eq_ok.mp hread
      cases hpart
      obtain ⟨hin, hov⟩ := hmem p hp
      obtain ⟨hlength, hbytes⟩ := readExtent_shown hsound hsize (heach p hp) hin hlen hov hone
      exact ⟨hlength, fun k b hk => ⟨p, hp, hin, hbytes k b hk⟩⟩
    obtain ⟨hlength, hbytes⟩ := flatten_overlapped hsound.layout.tiles hisPart
    rw [Nat.max_zero] at hlength hbytes
    exact ⟨hlength, hbytes⟩

end

end Read

/-! ## Replica writes and their history -/

end QuorumCluster

def ReplicaWrite.chunks (w : ReplicaWrite) : List ResolvedChunkWrite :=
  (resolvedWriteChunkMappings w.plan w.req).getD []

/-- The replica write carries the bytes of a write to `[off, off + len)`, wherever its chunks
lie in that range. -/
structure ReplicaWrite.Carries (g : Geometry) (off len : Nat) (w : ReplicaWrite)
    (bytes : List Byte) : Prop where
  chunkSizeBytes_eq : w.plan.chunkSizeBytes = g.chunkSizeBytes
  resolved : resolvedWriteChunkMappings w.plan w.req = some w.chunks
  payload : ∀ i, w.writeOffset ≤ i → i < w.writeOffset + w.payload.length →
    w.payload[i - w.writeOffset]? = bytes[i - off]?
  covers : ∀ chunk ∈ w.chunks, ∀ i, off ≤ i → i < off + len →
    chunk.logicalChunk * g.chunkSizeBytes ≤ i →
    i < chunk.logicalChunk * g.chunkSizeBytes + g.chunkSizeBytes →
      w.writeOffset ≤ i ∧ i < w.writeOffset + w.payload.length

/-- The last replica write that reached an object of a server: its write, the chunk it wrote
there, and whether it succeeded. -/
def lastWritten (server : String) (id : Nat) :
    List (String × ReplicaWrite × Bool) → Option (Nat × Nat × Bool)
  | [] => none
  | (name, w, ok) :: ran =>
    if name = server then
      ((lastChunk w.chunks id).map fun chunk => (w.write, chunk.logicalChunk, ok)).or
        (lastWritten server id ran)
    else lastWritten server id ran

namespace QuorumCluster

variable {off len : Nat}

/-- The replica write carries the bytes of its write. -/
def Carried (g : Geometry) (off len : Nat) (writes : List WriteRequest) (w : ReplicaWrite) : Prop :=
  ∃ req, writes[w.write]? = some req ∧ w.Carries g off len req.bytes

variable {writes : List WriteRequest} {w : ReplicaWrite} {servers : String → ChunkServer}
  {ran : List (String × ReplicaWrite × Bool)}

theorem getElem?_append_of_some {j : Nat} {req : WriteRequest} (h : writes[j]? = some req)
    (more : List WriteRequest) : (writes ++ more)[j]? = some req := by
  rw [getElem?_append_left (List.getElem?_eq_some_iff.mp h).1]
  exact h

theorem Carried.append (h : Carried g off len writes w) (more : List WriteRequest) :
    Carried g off len (writes ++ more) w := by
  obtain ⟨req, hreq, hcarries⟩ := h
  exact ⟨req, getElem?_append_of_some hreq more, hcarries⟩

/-- The objects that a replica write was the last to reach, with success, show the bytes of
its write. -/
def HistoryShown (off len : Nat) (writes : List WriteRequest) (servers : String → ChunkServer)
    (ran : List (String × ReplicaWrite × Bool)) : Prop :=
  ∀ server id j c, lastWritten server id ran = some (j, c, true) → ∃ req, writes[j]? = some req ∧
    (servers server).ShowsAt (fun i => req.bytes[i - off]?) off len id c

theorem HistoryShown.append (h : HistoryShown off len writes servers ran)
    (more : List WriteRequest) : HistoryShown off len (writes ++ more) servers ran := by
  intro server id j c hlast
  obtain ⟨req, hreq, hshows⟩ := h server id j c hlast
  exact ⟨req, getElem?_append_of_some hreq more, hshows⟩

/-- A replica write that runs late keeps the order of the history. -/
theorem HistoryShown.run (h : HistoryShown off len writes servers ran)
    (hw : Carried g off len writes w) (hsize : ∀ v, (servers v).chunkSizeBytes = g.chunkSizeBytes)
    (name : String) (faults : RemoteFaults) :
    let written := writeRemoteTarget faults w.plan w.req w.writeOffset w.payload (servers name)
    written.2.chunkSizeBytes = g.chunkSizeBytes ∧
      HistoryShown off len writes (update servers name written.2)
        ((name, w, written.1.isOk) :: ran) := by
  intro written
  obtain ⟨req, hreq, hcarries⟩ := hw
  have hwrites : Writes (fun i => req.bytes[i - off]?) w.writeOffset w.payload.length w.chunks
      (written.1 = .ok ()) (servers name) written.2 := by
    dsimp only [written, writeRemoteTarget]
    rw [hcarries.resolved]
    exact writeViaChunkAwareRPC_writes hcarries.payload
      (hcarries.chunkSizeBytes_eq.trans (hsize name).symm)
  have hsize' := hwrites.chunkSizeBytes_eq.trans (hsize name)
  refine ⟨hsize', fun server id j c hlast => ?_⟩
  rw [lastWritten] at hlast
  by_cases hname : name = server
  · subst hname
    rw [if_pos rfl] at hlast
    rw [update_self]
    cases hchunk : lastChunk w.chunks id with
    | some chunk =>
      rw [hchunk, map_some, some_or, some.injEq] at hlast
      have hj : w.write = j := congrArg (·.1) hlast
      have hc : chunk.logicalChunk = c := congrArg (·.2.1) hlast
      have hok : written.1.isOk = true := congrArg (·.2.2) hlast
      have hdone : written.1 = .ok () := by
        cases hresult : written.1 with
        | ok _ => rfl
        | error err =>
          rw [hresult] at hok
          cases hok
      subst hj hc
      refine ⟨req, hreq, fun i hlo hhi hclo hchi => ?_⟩
      rw [hsize'] at hclo hchi
      obtain ⟨hplo, hphi⟩ := hcarries.covers chunk
        (mem_reverse.mp (mem_of_find?_eq_some hchunk)) i hlo hhi hclo hchi
      exact hwrites.shows hdone id chunk hchunk i hplo hphi (hsize' ▸ hclo) (hsize' ▸ hchi)
    | none =>
      -- the object was not addressed
      rw [hchunk, map_none, none_or] at hlast
      obtain ⟨req', hreq', hshows⟩ := h name id j c hlast
      refine ⟨req', hreq', ?_⟩
      unfold ChunkServer.ShowsAt at hshows ⊢
      rw [hwrites.chunkSizeBytes_eq, hwrites.chunks_eq id hchunk]
      exact hshows
  · rw [if_neg hname] at hlast
    rw [update_of_ne (Ne.symm hname)]
    exact h server id j c hlast

/-! ## The write under way -/

/-- A write has begun, and its commit will find the metadata as it planned on them. -/
def UnderWay (g : Geometry) (size : Nat) (cfg : ExecutorConfig) (m' : Repository)
    (req : WriteRequest) (exec : WriteExecution) : Prop :=
  ∃ m m₁ state plan plan' missing idempotency operations, m.Sound g size ∧
    Planned m req state plan plan' m₁ ∧ m' = { m₁ with idempotency, operations } ∧
    SamePlans (newWriteExecution plan' req state missing) exec ∧
    HasIntent cfg req idempotency missing

section UnderWay

variable {cfg : ExecutorConfig} {m' : Repository} {req : WriteRequest} {exec : WriteExecution}

variable {status : ExtentWriteStatus}

/-- A replica write of the execution carries the bytes of the request. -/
theorem UnderWay.carries (h : UnderWay g size cfg m' req exec) (hgeom : req.HasGeometry g)
    (hzero : req.ZeroData) {extentIndex : Nat} (hstat : exec.extents[extentIndex]? = some status)
    {payload : List Byte}
    (hpay : payloadForExtent status.plan { req with data := replicaData exec req } = .ok payload)
    {writeOffset n : Nat} (hov : overlapRange status.plan.extent req.offsetBytes req.lengthBytes =
      .ok (writeOffset, n)) (write : Nat) (target : ReplicaTarget) :
    ReplicaWrite.Carries g req.offsetBytes req.lengthBytes
      { write, extentIndex, plan := status.plan, req := { req with data := replicaData exec req }
        writeOffset, payload, target } req.bytes := by
  obtain ⟨m, m₁, state, plan, plan', missing, idempotency, operations, hsound, hwrite, -, hsame, -⟩ :=
    h
  have hplans : exec.plans = plan' := hsame.plans_eq.trans (plans_newWriteExecution _ _ _)
  have hmem : status.plan ∈ plan' := hplans ▸ mem_map_of_mem (mem_of_getElem? hstat)
  obtain ⟨-, hwriter, -⟩ := hwrite.reserved hsound hgeom (hwrite.length_pos (ne_nil_of_mem hmem))
  have hplan := hwriter _ hmem
  have hplan' : WriterPlan g _ _ { req with data := replicaData exec req } status.plan :=
    { hplan with }
  have hres := hplan'.resolvedWriteChunkMappings_eq
  rw [overlapRange_of_overlaps hplan.overlaps] at hov
  cases hov
  refine ⟨hplan.chunkSizeBytes_eq, ?_, ?_, ?_⟩
  · rw [ReplicaWrite.chunks, hres]
    rfl
  · -- the payload is the extent's part of the data, or left out
    have hpart : payload = [] ∨ ∃ n, payload = slice (replicaData exec req)
        (max req.offsetBytes status.plan.extent.logicalOffset - req.offsetBytes) n ∧
        n ≤ min (req.offsetBytes + req.lengthBytes) status.plan.extent.endOffset -
          max req.offsetBytes status.plan.extent.logicalOffset := by
      unfold payloadForExtent at hpay
      rw [overlapRange_of_overlaps hplan.overlaps, ok_bind] at hpay
      dsimp only at hpay
      split at hpay
      · cases hpay
        exact .inl rfl
      · obtain ⟨-, hpay⟩ := throwIf_eq_ok.mp hpay
        cases hpay
        exact .inr ⟨_, rfl, le_rfl⟩
    intro i hlo hhi
    dsimp only at hlo hhi ⊢
    rcases hpart with rfl | ⟨n, rfl, hn⟩
    · rw [length_nil] at hhi
      omega
    have hlt : i - max req.offsetBytes status.plan.extent.logicalOffset <
        (slice (replicaData exec req)
          (max req.offsetBytes status.plan.extent.logicalOffset - req.offsetBytes) n).length := by
      omega
    have hget := getElem?_eq_getElem hlt
    rw [hget]
    rw [getElem?_slice] at hget
    simp only [ite_none_right_eq_some] at hget
    obtain ⟨hin, hget⟩ := hget
    rw [show max req.offsetBytes status.plan.extent.logicalOffset - req.offsetBytes +
      (i - max req.offsetBytes status.plan.extent.logicalOffset) = i - req.offsetBytes by omega]
      at hget
    exact (getElem?_bytes_of_replicaData exec hzero (by omega) hget).symm
  · intro chunk hchunk i hlo hhi hclo hchi
    rw [ReplicaWrite.chunks, hres, getD_some] at hchunk
    obtain ⟨c, hc, rfl⟩ := mem_map.mp hchunk
    have hin := (hplan'.mem_writtenChunks.mp hc).1.2
    obtain ⟨hdata, rfl⟩ := hplan'.payloadForExtent_eq hpay (ne_nil_of_mem hc)
    rw [length_slice hdata]
    unfold WriterPlan.length WriterPlan.start
    unfold ExtentMappingRecord.HasChunk at hin
    simp only [resolvedChunk] at hclo hchi
    dsimp only at hin ⊢
    omega

end UnderWay

/-! ## Runs -/

/-- What holds between events, whatever the write under way is. -/
structure Core (g : Geometry) (size off len : Nat) (s : QuorumCluster) : Prop where
  sound : s.repository.Sound g size
  sizes : ∀ v, (s.servers v).chunkSizeBytes = g.chunkSizeBytes
  started : ∀ w ∈ s.started, Carried g off len s.writes w
  history : HistoryShown off len s.writes s.servers s.ran
  /-- A chunk that the acknowledged write left without an object is zero. -/
  zeros : ∀ j, s.acknowledged = some j → ∃ req, s.writes[j]? = some req ∧
    ∀ e ∈ s.repository.extents, ∀ c, e.Touched g.chunkSizeBytes off len c →
      (s.repository.liveEntry g c).physicalChunkID = 0 → ∀ i, off ≤ i → i < off + len →
        c * g.chunkSizeBytes ≤ i → i < c * g.chunkSizeBytes + g.chunkSizeBytes →
          req.bytes[i - off]? = some 0

/-- The write under way is the last one begun. -/
structure Current (g : Geometry) (size off len : Nat) (cfg : ExecutorConfig) (s : QuorumCluster)
    (req : WriteRequest) (exec : WriteExecution) : Prop where
  underWay : UnderWay g size cfg s.repository req exec
  geometry : req.HasGeometry g
  zeroData : req.ZeroData
  offset_eq : req.offsetBytes = off
  length_eq : req.lengthBytes = len
  last : s.writes.getLast? = some req

/-- What holds of the write under way. -/
def PhaseOK (g : Geometry) (size off len : Nat) (cfg : ExecutorConfig) (s : QuorumCluster) : Prop :=
  match s.phase with
  | .idle => ∀ j, s.acknowledged = some j → s.writes.length = j + 1
  | .writing req exec fanout => Current g size off len cfg s req exec ∧
      ∀ target, Carried g off len s.writes (fanout.replicaWrite target)
  | .paid req exec => Current g size off len cfg s req exec
  | .failed => True

/-- The invariant of the run. -/
structure Inv (g : Geometry) (size off len : Nat) (cfg : ExecutorConfig) (s : QuorumCluster) :
    Prop where
  core : Core g size off len s
  phase : PhaseOK g size off len cfg s

section Steps

variable {cfg : QuorumConfig} {s s' : QuorumCluster} {req : WriteRequest} {exec : WriteExecution}

theorem Core.start (h : Core g size off len s) {ws : List ReplicaWrite}
    (hws : ∀ w ∈ ws, Carried g off len s.writes w) (phase : QuorumPhase) :
    Core g size off len { s with started := s.started ++ ws, phase } :=
  ⟨h.sound, h.sizes, fun w hw => (mem_append.mp hw).elim (h.started w) (hws w), h.history,
    h.zeros⟩

section

variable (hcore : Core g size off len s) (h : Current g size off len cfg.executor s req exec)

include hcore h

theorem startExtent_inv (extentIndex : Nat)
    (hok : (s.startExtent cfg.staged req exec extentIndex).phase ≠ .failed) :
    Inv g size off len cfg.executor (s.startExtent cfg.staged req exec extentIndex) := by
  revert hok
  unfold startExtent
  cases hstat : exec.extents[extentIndex]? with
  | none => exact fun _ => ⟨{ hcore with }, { h with }⟩
  | some status =>
    dsimp only
    cases hpay : payloadForExtent status.plan { req with data := replicaData exec req } with
    | error err => exact absurd rfl
    | ok payload =>
      cases hov : overlapRange status.plan.extent req.offsetBytes req.lengthBytes with
      | error err => exact absurd rfl
      | ok range =>
        obtain ⟨writeOffset, n⟩ := range
        dsimp only
        split
        · exact absurd rfl
        intro _
        have hcarried : ∀ target, Carried g off len s.writes {
            write := s.writes.length - 1, extentIndex, plan := status.plan, writeOffset, payload
            target, req := { req with data := replicaData exec req } } := by
          intro target
          have hcarries := h.underWay.carries h.geometry h.zeroData hstat hpay hov
            (s.writes.length - 1) target
          obtain rfl := h.offset_eq
          obtain rfl := h.length_eq
          exact ⟨req, (getLast?_eq_getElem? ▸ h.last), hcarries⟩
        refine ⟨hcore.start (fun w hw => ?_) _, { h with }, hcarried⟩
        obtain ⟨target, -, rfl⟩ := mem_map.mp hw
        exact hcarried target

theorem finishExtent_inv (fanout : Fanout) (requirePrimaryAck : Bool)
    (hok : (s.finishExtent cfg.staged req exec fanout requirePrimaryAck).phase ≠ .failed) :
    Inv g size off len cfg.executor
      (s.finishExtent cfg.staged req exec fanout requirePrimaryAck) := by
  revert hok
  unfold finishExtent
  dsimp only
  split
  · exact absurd rfl
  split
  · refine startExtent_inv hcore { h with underWay := ?_ } _
    obtain ⟨m, m₁, state, plan, plan', missing, idempotency, operations, hsound, hplan, hm, hplans,
      hintent⟩ := h.underWay
    exact ⟨m, m₁, state, plan, plan', missing, idempotency, operations, hsound, hplan, hm,
      hplans.trans (samePlans_markReplicaAcks _ _ _ _), hintent⟩
  · exact absurd rfl

end

variable {fanout : Fanout}

section

variable (hcore : Core g size off len s)
  (hfanout : ∀ target, Carried g off len s.writes (fanout.replicaWrite target))

include hcore hfanout

theorem startDelayed_core : Core g size off len (s.startDelayed fanout).2 := by
  refine hcore.start (fun w hw => ?_) s.phase
  obtain ⟨target, -, rfl⟩ := mem_map.mp hw
  exact hfanout target

variable (h : Current g size off len cfg.executor s req exec)

include h

theorem continueExtent_inv (hok : (s.continueExtent cfg.staged req exec fanout).phase ≠ .failed) :
    Inv g size off len cfg.executor (s.continueExtent cfg.staged req exec fanout) := by
  revert hok
  unfold continueExtent
  split
  · exact finishExtent_inv (startDelayed_core hcore hfanout) { h with } _ _
  split
  · exact fun _ => ⟨{ hcore with }, { h with }, hfanout⟩
  split
  · exact absurd rfl
  · exact finishExtent_inv hcore h _ _

theorem receive_inv (result : String × Option String)
    (hok : (s.receive cfg.staged req exec fanout result).phase ≠ .failed) :
    Inv g size off len cfg.executor (s.receive cfg.staged req exec fanout result) := by
  obtain ⟨replicaID, failure⟩ := result
  cases failure with
  | none => exact continueExtent_inv hcore hfanout h hok
  | some failure =>
    revert hok
    unfold receive
    dsimp only
    split
    · exact continueExtent_inv (startDelayed_core hcore hfanout) hfanout { h with }
    · exact continueExtent_inv hcore hfanout h

end

theorem deliver_inv (h : Inv g size off len cfg.executor s) (w : ReplicaWrite)
    (failure : Option String) : Inv g size off len cfg.executor (s.deliver w failure) := by
  have hok := h.phase
  unfold PhaseOK at hok
  unfold deliver
  split
  · next req exec fanout hphase =>
    split
    · rw [hphase] at hok
      exact ⟨{ h.core with }, { hok.1 with }, hok.2⟩
    · exact h
  · exact h

variable {executor : ExecutorConfig} {events : List Event}

/-- Events that leave the metadata and the writes alone keep what holds of the write under
way. -/
theorem PhaseOK.of_eq (h : PhaseOK g size off len executor s) (hrepo : s'.repository = s.repository)
    (hphase : s'.phase = s.phase) (hwrites : s'.writes = s.writes)
    (hack : s'.acknowledged = s.acknowledged) : PhaseOK g size off len executor s' := by
  have hcur : ∀ req exec, Current g size off len executor s req exec →
      Current g size off len executor s' req exec := fun req exec hc =>
    ⟨hrepo ▸ hc.underWay, hc.geometry, hc.zeroData, hc.offset_eq, hc.length_eq,
      hwrites ▸ hc.last⟩
  unfold PhaseOK at h ⊢
  rw [hphase]
  cases hs : s.phase with
  | idle =>
    rw [hs] at h
    rw [hwrites, hack]
    exact h
  | writing req exec fanout =>
    rw [hs] at h
    rw [hwrites]
    exact ⟨hcur _ _ h.1, h.2⟩
  | paid req exec =>
    rw [hs] at h
    exact hcur _ _ h
  | failed => trivial

theorem runReplicaWrite_inv (h : Inv g size off len cfg.executor s) {w : ReplicaWrite}
    (hw : Carried g off len s.writes w) (faults : Option RemoteFaults) :
    Inv g size off len cfg.executor (s.runReplicaWrite cfg.sessions w faults) := by
  unfold runReplicaWrite
  split
  · exact deliver_inv h w _
  · exact deliver_inv h w _
  next session faults _ =>
  obtain ⟨hsize, hhistory⟩ := h.core.history.run hw h.core.sizes session.server faults
  have hran : Inv g size off len cfg.executor { s with
      servers := update s.servers session.server
        (writeRemoteTarget faults w.plan w.req w.writeOffset w.payload (s.servers session.server)).2
      ran := (session.server, w, (writeRemoteTarget faults w.plan w.req w.writeOffset w.payload
        (s.servers session.server)).1.isOk) :: s.ran } := by
    refine ⟨⟨h.core.sound, fun v => ?_, h.core.started, hhistory, h.core.zeros⟩,
      h.phase.of_eq rfl rfl rfl rfl⟩
    dsimp only
    by_cases hv : v = session.server
    · rw [hv, update_self]
      exact hsize
    · rw [update_of_ne hv]
      exact h.core.sizes v
  dsimp only
  split
  · exact deliver_inv hran w _
  · exact deliver_inv hran w _

/-- What a write of the run has to meet when it begins. -/
structure RangeWrite (g : Geometry) (cfg : ExecutorConfig) (off len : Nat) (m : Repository)
    (req : WriteRequest) : Prop where
  geometry : req.HasGeometry g
  zeroData : req.ZeroData
  offset_eq : req.offsetBytes = off
  length_eq : req.lengthBytes = len
  noRecord : cfg.allowMissingWriteIntent = true →
    Table.get? (·.idempotencyKey) req.idempotencyKey m.idempotency = none

theorem Core.of_records (h : Core g size off len s) (m : Repository)
    (hpages : m.pages = s.repository.pages) (hexts : m.extents = s.repository.extents)
    (hsets : m.replicaSets = s.repository.replicaSets) (hnodes : m.nodes = s.repository.nodes)
    (hnext : s.repository.getNextChunkID ≤ m.getNextChunkID) (more : List WriteRequest) :
    Core g size off len { s with repository := m, writes := s.writes ++ more } := by
  refine ⟨h.sound.of_same hpages hexts hsets hnodes hnext, h.sizes,
    fun w hw => (h.started w hw).append more, h.history.append more, fun j hj => ?_⟩
  obtain ⟨req, hreq, hzeros⟩ := h.zeros j hj
  refine ⟨req, getElem?_append_of_some hreq more, ?_⟩
  rw [hexts, Repository.liveEntry_congr hpages hexts]
  exact hzeros

theorem bytes_of_zeroSemantic (hzero : req.zeroSemantic = true) {i : Nat}
    (hi : i < req.lengthBytes) : req.bytes[i]? = some 0 := by
  rw [WriteRequest.bytes, if_pos hzero, getElem?_replicate, if_pos hi]

theorem Core.acknowledge (h : Core g size off len s) (req : WriteRequest)
    (hlast : s.writes.getLast? = some req)
    (hzeros : ∀ e ∈ s.repository.extents, ∀ c, e.Touched g.chunkSizeBytes off len c →
      (s.repository.liveEntry g c).physicalChunkID = 0 → ∀ i, off ≤ i → i < off + len →
        c * g.chunkSizeBytes ≤ i → i < c * g.chunkSizeBytes + g.chunkSizeBytes →
          req.bytes[i - off]? = some 0) (executor : ExecutorConfig) :
    Inv g size off len executor
      { s with phase := .idle, acknowledged := some (s.writes.length - 1) } := by
  have hpos : 0 < s.writes.length := by
    rw [length_pos_iff]
    rintro hnil
    simp [hnil] at hlast
  refine ⟨⟨h.sound, h.sizes, h.started, h.history, fun j hj => ?_⟩, fun j hj => ?_⟩
  · cases hj
    exact ⟨req, getLast?_eq_getElem? ▸ hlast, hzeros⟩
  · cases hj
    dsimp only
    omega

/-- A write begins. -/
theorem begin_inv (h : Inv g size off len cfg.executor s) (hidle : s.phase = .idle)
    (hreq : RangeWrite g cfg.executor off len s.repository req)
    (hok : (s.begin cfg req).phase ≠ .failed) : Inv g size off len cfg.executor (s.begin cfg req) := by
  unfold begin at hok ⊢
  cases hbegin : beginWrite cfg.executor s.repository req with
  | error err =>
    rw [hbegin] at hok
    exact absurd rfl hok
  | ok begun =>
    obtain ⟨result, m⟩ := begun
    rw [hbegin] at hok
    cases result with
    | replay record =>
      cases begun_of_beginWrite hbegin with
      | replay _ _ _ => exact h
    | noop revision =>
      cases begun_of_beginWrite hbegin with
      | noop state plan _ hvol hplan hnoop hrecs =>
        have hcore : Core g size off len
            { s with repository := m, writes := s.writes ++ [req] } := by
          rcases hrecs with rfl | rfl
          · exact h.core.of_records _ rfl rfl rfl rfl le_rfl [req]
          · exact h.core.of_records (s.repository.putIdempotencyRecord
              (writeIdempotencyRecord state req .committed)) rfl rfl rfl rfl le_rfl [req]
        have hacked := hcore.acknowledge req (by simp) (fun _ _ _ _ _ i hlo hhi _ _ =>
          bytes_of_zeroSemantic (writePlanIsZeroNoop_cases hnoop).1
            (by rw [hreq.length_eq]; omega)) cfg.executor
        simpa [hidle] using hacked
    | execution exec =>
      obtain ⟨state, plan, plan', m₁, missing, idempotency, operations, hplanned, rfl, rfl, -,
        hintent⟩ := (begun_of_beginWrite hbegin).execution_cases
      have hnext := (writerStep_prepareWritePlanAllocations hplanned.prepared).next_le
      have hpend : HasIntent cfg.executor req idempotency missing := by
        refine hintent.imp_right ?_
        rintro ⟨hmiss, hallowed, happend, rfl⟩
        exact ⟨hreq.noRecord hallowed, hmiss, happend⟩
      refine startExtent_inv ?_ ?_ 0 hok
      · obtain ⟨next, rfl, -⟩ := prepareWritePlanAllocations_same hplanned.prepared
        exact h.core.of_records { s.repository with nextChunkID := next, idempotency, operations }
          rfl rfl rfl rfl hnext [req]
      · exact ⟨⟨s.repository, m₁, state, plan, plan', missing, idempotency, operations,
          h.core.sound, hplanned, rfl, .refl _, hpend⟩, hreq.geometry, hreq.zeroData,
          hreq.offset_eq, hreq.length_eq, by simp⟩

/-- A write commits. -/
theorem commit_inv (hasync : cfg.executor.asyncWriteEffects = false)
    (hcore : Core g size off len s) (h : Current g size off len cfg.executor s req exec) (now : Nat)
    (hok : (s.commit cfg now req exec).phase ≠ .failed) :
    Inv g size off len cfg.executor (s.commit cfg now req exec) := by
  unfold commit at hok ⊢
  split
  · next err c hfinish =>
    rw [hfinish] at hok
    exact absurd rfl hok
  next resp c hfinish =>
  obtain ⟨m, m₁, state, plan, plan', missing, idempotency, operations, hsound, hplan,
    hrepo, hsame, hintent⟩ := h.underWay
  have hplans : exec.plans = plan' := hsame.plans_eq.trans (plans_newWriteExecution _ _ _)
  have hne : plan' ≠ [] := by
    rintro rfl
    refine extents_ne_nil_of_canCommitMetadata (canCommitMetadata_of_finishWrite hfinish) ?_
    simpa [WriteExecution.plans] using hplans
  have hlen := hplan.length_pos hne
  obtain ⟨-, -, htouchedNe, htouch, record, hcomm⟩ := finishWrite_commits hasync hsound
    h.geometry hlen hplan hintent hsame hrepo hfinish
  obtain ⟨hresv, -, -⟩ := hplan.reserved hsound h.geometry hlen
  have hresv := hresv.of_records idempotency operations
  have hsound1 := hcore.sound
  rw [hrepo] at hsound1
  have hsound' := hresv.commit_sound htouch htouchedNe hcomm hsound1
  have hcore' : Core g size off len { s with
      repository := c.repository, deferred := c.deferred, acknowledged := none } :=
    ⟨hsound', hcore.sizes, hcore.started, hcore.history, nofun⟩
  refine hcore'.acknowledge req h.last (fun e' he' k ht hid i hlo hhi hclo hchi => ?_) cfg.executor
  -- a touched chunk without an object was covered by zeros
  obtain rfl := h.offset_eq
  obtain rfl := h.length_eq
  obtain ⟨e, he, hsame'⟩ := exists_of_mem_right hcomm.extents he'
  have hin := hsame'.hasChunk_iff.mp ht.2
  rcases hresv.committed_cases htouch htouchedNe hcomm k with
    ⟨-, hskip, -⟩ | ⟨p, hp, hk, heq⟩ | ⟨hk, -⟩
  · exact bytes_of_zeroSemantic ((Bool.and_eq_true _ _).mp hskip).1 (by omega)
  · rw [heq] at hid
    obtain ⟨htp, hskip⟩ := (hresv.each p hp).mem_writtenChunks.mp hk
    exact absurd hid ((hresv.each p hp).mapped k htp hskip)
  · obtain ⟨p, hp, hsame''⟩ := hresv.exists_plan he (overlaps_of_hits ht.1 hin)
    exact absurd ((htouch k).mpr ⟨p, hp, ht.1, hsame''.hasChunk_iff.mp hin⟩) hk

/-- One event of a run whose writes go to one range and do not fail. -/
def RunStep (g : Geometry) (cfg : QuorumConfig) (off len : Nat) (s s' : QuorumCluster) : Prop :=
  ∃ event, s.step cfg event = some s' ∧ s'.phase ≠ .failed ∧
    ∀ req, event = .begin req → RangeWrite g cfg.executor off len s.repository req

/-- Every event of the run keeps the invariant. -/
theorem step_inv (hasync : cfg.executor.asyncWriteEffects = false)
    (h : Inv g size off len cfg.executor s) (hstep : RunStep g cfg off len s s') :
    Inv g size off len cfg.executor s' := by
  obtain ⟨event, hstep, hok, hreq⟩ := hstep
  have hphase := h.phase
  cases event with
  | begin req =>
    simp only [step] at hstep
    split at hstep
    · next hidle =>
      cases hstep
      exact begin_inv h hidle (hreq req rfl) hok
    · cases hstep
  | run k faults =>
    obtain ⟨w, hw, rfl⟩ := map_eq_some_iff.mp hstep
    have hcarried := h.core.started w (mem_of_getElem? hw)
    have herased : Inv g size off len cfg.executor { s with started := s.started.eraseIdx k } :=
      ⟨⟨h.core.sound, h.core.sizes, fun w' hw' => h.core.started w' (mem_of_mem_eraseIdx hw'),
        h.core.history, h.core.zeros⟩, hphase.of_eq rfl rfl rfl rfl⟩
    exact runReplicaWrite_inv herased hcarried faults
  | receive k =>
    simp only [step] at hstep
    split at hstep
    · next req exec fanout hwriting =>
      obtain ⟨result, -, rfl⟩ := map_eq_some_iff.mp hstep
      unfold PhaseOK at hphase
      rw [hwriting] at hphase
      have hfanout : ∀ target, Carried g off len s.writes
          ({ fanout with results := fanout.results.eraseIdx k }.replicaWrite target) := hphase.2
      exact receive_inv h.core hfanout hphase.1 result hok
    · cases hstep
  | delayPassed =>
    simp only [step] at hstep
    split at hstep
    · next req exec fanout hwriting =>
      cases hstep
      unfold PhaseOK at hphase
      rw [hwriting] at hphase
      exact ⟨{ startDelayed_core h.core hphase.2 with }, { hphase.1 with }, hphase.2⟩
    · cases hstep
  | commit now =>
    simp only [step] at hstep
    split at hstep
    · next req exec hpaid =>
      cases hstep
      unfold PhaseOK at hphase
      rw [hpaid] at hphase
      exact commit_inv hasync h.core hphase now hok
    · cases hstep

/-- A cluster with a sound volume and no write so far. -/
structure Starts (g : Geometry) (size : Nat) (s : QuorumCluster) : Prop where
  sound : s.repository.Sound g size
  sizes : ∀ v, (s.servers v).chunkSizeBytes = g.chunkSizeBytes
  phase : s.phase = .idle
  started : s.started = []
  acknowledged : s.acknowledged = none
  ran : s.ran = []

theorem Starts.inv (h : Starts g size s) : Inv g size off len executor s := by
  refine ⟨⟨h.sound, h.sizes, ?_, ?_, ?_⟩, ?_⟩
  · simp [h.started]
  · intro server id j c hlast
    simp [h.ran, lastWritten] at hlast
  · simp [h.acknowledged]
  · unfold PhaseOK
    rw [h.phase]
    simp [h.acknowledged]

theorem run_inv (hasync : cfg.executor.asyncWriteEffects = false) (hstart : Starts g size s)
    (hrun : Relation.ReflTransGen (RunStep g cfg off len) s s') :
    Inv g size off len cfg.executor s' := by
  induction hrun with
  | refl => exact hstart.inv
  | tail _ hstep ih => exact step_inv hasync ih hstep

/-- A server has caught up with write `j`: the last replica write that reached an object of the
range was one of `j` or of a later write, wrote the chunk that has the object now, and
succeeded. -/
def CaughtUp (g : Geometry) (s : QuorumCluster) (req : ReadRequest) (j : Nat) (server : String) :
    Prop :=
  ∀ c ∈ touchedChunks g.chunkSizeBytes req.offsetBytes req.lengthBytes,
    (s.repository.liveEntry g c).physicalChunkID ≠ 0 →
      ∃ written ∈ lastWritten server (s.repository.liveEntry g c).physicalChunkID s.ran,
        j ≤ written.1 ∧ written.2 = (c, true)

instance (g : Geometry) (s : QuorumCluster) (req : ReadRequest) (j : Nat) (server : String) :
    Decidable (CaughtUp g s req j server) := by
  unfold CaughtUp
  infer_instance

/-- Every server that may answer the read has caught up with write `j`. -/
def AllCaughtUp (g : Geometry) (sessions : String → Option RemoteSession) (down : String → Bool)
    (s : QuorumCluster) (req : ReadRequest) (j : Nat) : Prop :=
  ∀ p ∈ (planRead s.repository req.offsetBytes req.lengthBytes req.pageBytes
      req.chunkSizeBytes).toOption.getD [],
    ∀ target ∈ p.preferred :: p.fallbacks, ∀ session ∈ remoteReplicaForTarget sessions target,
      down session.server = false → CaughtUp g s req j session.server

instance (g : Geometry) (sessions : String → Option RemoteSession) (down : String → Bool)
    (s : QuorumCluster) (req : ReadRequest) (j : Nat) :
    Decidable (AllCaughtUp g sessions down s req j) := by
  unfold AllCaughtUp
  infer_instance

/-- Once the servers that may answer have caught up with the last acknowledged write, a read
returns its bytes or those of later writes; while no write is under way, its bytes. -/
theorem read_current {sessions : String → Option RemoteSession} {executor : ExecutorConfig}
    {staged : Bool} {s₀ : QuorumCluster} (hasync : executor.asyncWriteEffects = false)
    (hstart : Starts g size s₀)
    (hrun : Relation.ReflTransGen (RunStep g ⟨executor, sessions, staged⟩ off len) s₀ s) {j : Nat}
    (hacknowledged : s.acknowledged = some j) {rreq : ReadRequest}
    (hpage : rreq.pageBytes = g.pageBytes) (hchunk : rreq.chunkSizeBytes = g.chunkSizeBytes)
    (hlo : off ≤ rreq.offsetBytes) (hhi : rreq.offsetBytes + rreq.lengthBytes ≤ off + len)
    {down : String → Bool} (hcaught : AllCaughtUp g sessions down s rreq j) {data : List Byte}
    (hread : s.read sessions down rreq = .ok data) :
    data.length = min (rreq.offsetBytes + rreq.lengthBytes) size - rreq.offsetBytes ∧
      ∀ k b, data[k]? = some b → ∃ j' req, j ≤ j' ∧ s.writes[j']? = some req ∧
        req.bytes[rreq.offsetBytes + k - off]? = some b ∧ (s.phase = .idle → j' = j) := by
  obtain ⟨hcore, hphase⟩ := run_inv hasync hstart hrun
  obtain ⟨plans, hplans, hlen, hbytes⟩ := read_shown hcore.sound hcore.sizes hpage hchunk hread
  refine ⟨hlen, fun k b hk => ?_⟩
  obtain ⟨p, hp, hin, htouch, hshown⟩ := hbytes k b hk
  have hlt : k < data.length := (List.getElem?_eq_some_iff.mp hk).1
  have hpos := g.chunkSizeBytes_pos
  have hposition := (div_eq_iff_chunk hpos (i := rreq.offsetBytes + k)).mp rfl
  -- the position is in the range, and no write is later than the last one begun
  have hidle : ∀ j' req, j ≤ j' → s.writes[j']? = some req → s.phase = .idle → j' = j := by
    intro j' req hle hreq hidle
    unfold PhaseOK at hphase
    rw [hidle] at hphase
    have := (List.getElem?_eq_some_iff.mp hreq).1
    have := hphase j hacknowledged
    omega
  rcases hshown with ⟨hid, rfl⟩ | ⟨hid, server, ⟨target, htarget, session, hsess, rfl, hup⟩, rfl⟩
  · obtain ⟨req, hreq, hzeros⟩ := hcore.zeros j hacknowledged
    have ht : Hits g.chunkSizeBytes off len ((rreq.offsetBytes + k) / g.chunkSizeBytes) :=
      hits_div hpos (by omega) (by omega)
    exact ⟨j, req, le_rfl, hreq, hzeros p.extent hin _ ⟨ht, htouch.2⟩ hid _ (by omega) (by omega)
      hposition.1 hposition.2, fun _ => rfl⟩
  · obtain ⟨⟨j', c, ok⟩, hlast, hle, hwrit⟩ := hcaught p (by rw [hplans]; exact hp) target htarget
      session hsess hup _ ((mem_touchedChunks hpos (by omega)).mpr htouch.1) hid
    cases hwrit
    obtain ⟨req, hreq, hshows⟩ := hcore.history _ _ _ _ hlast
    refine ⟨j', req, hle, hreq, ?_, hidle j' req hle hreq⟩
    have hsize := hcore.sizes session.server
    obtain ⟨value, hvalue, hvalueLen, hget⟩ := hshows (rreq.offsetBytes + k) (by omega) (by omega)
      (by rw [hsize]; exact hposition.1) (by rw [hsize]; exact hposition.2)
    dsimp only at hget
    rw [← hget]
    simp only [ChunkServer.array]
    rw [hsize, if_neg hid, hvalue]
    have hin : rreq.offsetBytes + k - (rreq.offsetBytes + k) / g.chunkSizeBytes * g.chunkSizeBytes <
        value.length := by
      omega
    simp [getElem?_eq_getElem hin]

theorem reaches_of_steps (hsteps : s.steps cfg events = some s')
    (hreq : ∀ req, .begin req ∈ events → ∀ m, RangeWrite g cfg.executor off len m req)
    (hok : ∀ es ∈ events.inits, ∀ t ∈ s.steps cfg es, t.phase ≠ .failed) :
    Relation.ReflTransGen (RunStep g cfg off len) s s' := by
  induction events generalizing s with
  | nil =>
    cases hsteps
    exact .refl
  | cons event events ih =>
    obtain ⟨s1, hstep, hsteps⟩ := bind_eq_some_iff.mp hsteps
    have hok1 : ∀ es ∈ events.inits, ∀ t ∈ s1.steps cfg es, t.phase ≠ .failed := fun es hes t ht =>
      hok (event :: es) (by simpa using hes) t (bind_eq_some_iff.mpr ⟨s1, hstep, ht⟩)
    have hrest := ih hsteps (fun req hmem => hreq req (mem_cons_of_mem _ hmem)) hok1
    refine .head ⟨event, hstep, hok1 [] (by cases events <;> simp) s1 rfl, ?_⟩ hrest
    rintro req rfl
    exact hreq req mem_cons_self s.repository

end Steps

end QuorumCluster

/-! ## A primary that falls behind -/

namespace SlowPrimary

open QuorumCluster
open LegacyVolume (geometry)

/-- A volume of two chunks on three replicas, of which two have to acknowledge. -/
def start : QuorumCluster :=
  { repository :=
      { volume := some { epoch := 1, revision := 1 }, extents := [⟨1, 0, 8, 0, "p", 1⟩]
        replicaSets := [{ replicaSetID := "rs", placementRef := "p", epoch := 1
                          replicas := [⟨"n1", "r1", .primary, "z1"⟩, ⟨"n2", "r2", .secondary, "z2"⟩,
                            ⟨"n3", "r3", .secondary, "z3"⟩]
                          primaryReplicaID := "r1", writeQuorum := 2 }] }
    servers := fun _ => { chunkSizeBytes := 4, chunks := fun _ => none, data := fun _ => 0 } }

def cfg : QuorumConfig := { executor := {}, sessions := fun name => some ⟨name, name⟩ }

def request (key : String) (b : Byte) : WriteRequest :=
  { attachmentID := "a", generation := 1, idempotencyKey := key, offsetBytes := 0
    lengthBytes := 4, data := List.replicate 4 b, pageBytes := 8, chunkSizeBytes := 4 }

def readRequest : ReadRequest := ⟨0, 4, 8, 4⟩

/-- The first write reaches all replicas, the second the two that are not the primary. -/
def events : List Event :=
  [.begin (request "k1" 65), .run 0 (some {}), .receive 0, .run 0 (some {}), .receive 0, .commit 0,
    .run 0 (some {}), .begin (request "k2" 66), .run 1 (some {}), .receive 0, .run 1 (some {}),
    .receive 0, .commit 0]

theorem starts : Starts geometry 8 start := by
  refine ⟨?_, fun _ => rfl, rfl, rfl, rfl, rfl⟩
  have hnew : NewVolume geometry 8 { repository := start.repository, stores := fun _ => none } := by
    refine ⟨⟨⟨rfl, Nat.succ_pos 7, rfl⟩, ?_, ?_, pairwise_singleton _ _⟩, rfl, fun _ _ _ => rfl⟩
    · intro e he
      rw [mem_singleton.mp he]
      exact ⟨0, rfl⟩
    · intro e he
      rw [mem_singleton.mp he]
      exact ⟨2, rfl⟩
  exact hnew.represents (by decide)

theorem rangeWrite (key : String) (b : Byte) (m : Repository) :
    RangeWrite geometry cfg.executor 0 4 m (request key b) :=
  ⟨⟨rfl, rfl⟩, nofun, rfl, rfl, nofun⟩

/-- The second write is acknowledged, all replicas answer, and the read returns the first
write. -/
theorem acknowledged_write_not_read :
    Starts geometry 8 start ∧ ∃ s, start.steps cfg events = some s ∧
      s.acknowledged = some 1 ∧ s.writes = [request "k1" 65, request "k2" 66] ∧
      s.read cfg.sessions (fun _ => false) readRequest = .ok (List.replicate 4 65) := by
  refine ⟨starts, (start.steps cfg events).get (by decide +kernel), (some_get _).symm, ?_⟩
  decide +kernel

/-- The cluster once the primary's replica write has run as well. -/
def current : QuorumCluster :=
  (start.steps cfg (events ++ [.run 0 (some {})])).get (by decide +kernel)

/-- With the replica write of the primary the acknowledged write is read. -/
theorem acknowledged_write_is_read :
    AllCaughtUp geometry cfg.sessions (fun _ => false) current readRequest 1 ∧
      ∃ data, current.read cfg.sessions (fun _ => false) readRequest = .ok data ∧
        data.length = 4 ∧ ∀ (k : Nat) (b : Byte), data[k]? = some b → b = 66 := by
  have hcaught : AllCaughtUp geometry cfg.sessions (fun _ => false) current readRequest 1 := by
    decide +kernel
  have hread : current.read cfg.sessions (fun _ => false) readRequest =
      .ok (replicate 4 66) := by
    decide +kernel
  have hrun : Relation.ReflTransGen (RunStep geometry cfg 0 4) start current := by
    refine reaches_of_steps (some_get _).symm ?_ ?_
    · intro req hmem m
      have hreq : req = request "k1" 65 ∨ req = request "k2" 66 := by simpa [events] using hmem
      rcases hreq with rfl | rfl
      · exact rangeWrite _ _ m
      · exact rangeWrite _ _ m
    · have hphases : ∀ es ∈ (events ++ [Event.run 0 (some {})]).inits, ∀ t ∈ start.steps cfg es,
          (match t.phase with | .failed => true | _ => false) = false := by
        decide +kernel
      intro es hes t ht hfailed
      have hphase := hphases es hes t ht
      rw [hfailed] at hphase
      cases hphase
  obtain ⟨hlen, hbytes⟩ := read_current rfl starts hrun (by decide +kernel) rfl rfl le_rfl le_rfl
    hcaught hread
  refine ⟨hcaught, _, hread, hlen, fun k b hk => ?_⟩
  obtain ⟨j, req, hj, hreq, hb, -⟩ := hbytes k b hk
  have hwrites : current.writes = [request "k1" 65, request "k2" 66] := by decide +kernel
  rw [hwrites] at hreq
  obtain rfl : j = 1 := by
    have hlt := (List.getElem?_eq_some_iff.mp hreq).1
    simp only [length_cons, length_nil] at hlt
    omega
  cases hreq
  have hmem : b ∈ replicate 4 66 := mem_of_getElem? hb
  exact eq_of_mem_replicate hmem

end SlowPrimary

end Namrbd
