import Namrbd.Verify.Concurrent

/-!
# Runs of concurrent writes

In every run of two write calls that stay apart the bytes of both are read back once both
have succeeded (`concurrent_read_eq_window`). Calls that share a chunk that has to be
remapped lose bytes: both start from the same chunk, and the later commit maps its own copy. A
rebased zero write loses its zeros: nothing is left for it to retire. A zero write
that is skipped is not checked again before it is acknowledged.
-/

namespace Namrbd

variable {g : Geometry} {size : Nat} {c : Cluster}

section Runs

variable {ι : Type} [DecidableEq ι] {cfg : ExecutorConfig} {req : ι → WriteRequest}
  {ok : Calls ι → ι → Action → Prop} {f0 : Nat → Byte}

/-- Calls that start together on a cluster and take their actions in any order; `ok` restricts
the actions. -/
inductive Interleaving (cfg : ExecutorConfig) (req : ι → WriteRequest)
    (ok : Calls ι → ι → Action → Prop) (c : Cluster) : Calls ι → Prop
  | start : Interleaving cfg req ok c (.start c)
  | step {s s' : Calls ι} (h : Interleaving cfg req ok c s) (i : ι) (a : Action) (hok : ok s i a)
      (hstep : s.step cfg req i a = some s') : Interleaving cfg req ok c s'

theorem Interleaving.steps {s s' : Calls ι} {actions : List (ι × Action)}
    (h : Interleaving cfg req ok c s) (hok : ∀ s i a, (i, a) ∈ actions → ok s i a)
    (hsteps : s.steps cfg req actions = some s') : Interleaving cfg req ok c s' := by
  induction actions generalizing s with
  | nil =>
    cases hsteps
    exact h
  | cons action rest ih =>
    obtain ⟨s1, hstep, hrest⟩ := Option.bind_eq_some_iff.mp hsteps
    exact ih (h.step action.1 action.2 (hok s _ _ List.mem_cons_self) hstep)
      (fun s i a hmem => hok s i a (List.mem_cons_of_mem _ hmem)) hrest

/-- Every state of a run of calls that stay apart stands for an array, unless a call has
failed. -/
theorem Interleaving.sound (hasync : cfg.asyncWriteEffects = false) (hreq : Compatible g req)
    (hrep : Represents g size c.repository c.stores f0)
    (hnat : c.repository.pages = [] → ∀ k, (c.repository.liveEntry g k).physicalChunkID = 0)
    (hkeys : ∀ i, Table.get? (·.idempotencyKey) (req i).idempotencyKey
      c.repository.idempotency = none)
    {s : Calls ι} (hrun : Interleaving cfg req (StaysApart g cfg req) c s) :
    (∃ i, (s.phase i).Doomed) ∨
      ∃ f live planned, Sound g size cfg req f0 s.cluster s.phase f live planned := by
  induction hrun with
  | start =>
    refine .inr ⟨f0, fun _ _ => .zero, fun _ _ => .zero, hrep, hnat, hkeys, ?_, fun _ _ => rfl⟩
    intro i j _ exec exec' hexec
    cases hexec
  | @step s s' _ i a hok hstep ih =>
    obtain ⟨⟨c', ph⟩, hcall, hs'⟩ := Option.map_eq_some_iff.mp hstep
    subst hs'
    rcases ih with ⟨j, hj⟩ | ⟨f, live, planned, hsound⟩
    · refine .inl ⟨j, ?_⟩
      dsimp only
      by_cases hji : j = i
      · subst hji
        rw [Function.update_self]
        exact hj.callStep hcall
      · rw [Function.update_of_ne hji]
        exact hj
    · rcases hsound.callStep hasync hreq hok hcall with hdoomed | hsound
      · refine .inl ⟨i, ?_⟩
        dsimp only
        rw [Function.update_self]
        exact hdoomed
      · exact .inr hsound

end Runs

namespace TwoCalls

open LegacyVolume

/-- One call waits until the other has committed, loses the race, rebases and commits. -/
def actions (first second : Bool) : List (Bool × Action) :=
  [(true, .begin), (false, .begin), (true, .payload .reliable), (false, .payload .reliable),
    (true, .prepare), (false, .prepare), (first, .commit 0), (second, .commit 0),
    (second, .rebase), (second, .prepare), (second, .commit 0)]

def half (key : String) (offsetBytes : Nat) (b : Byte) : WriteRequest :=
  { attachmentID := "a", generation := 1, idempotencyKey := key, offsetBytes := offsetBytes
    lengthBytes := 2, data := List.replicate 2 b, pageBytes := 8, chunkSizeBytes := 4 }

def halves (i : Bool) : WriteRequest := if i then half "k1" 0 65 else half "k2" 2 66

def chunks (i : Bool) : WriteRequest := if i then request "k1" 0 65 else request "k2" 4 66

end TwoCalls

/-! ## A zero write that is skipped -/

theorem Layout.exists_hasChunk {i : Nat} {extents : List ExtentMappingRecord}
    (h : Layout g size extents) (hi : i < size) :
    ∃ e ∈ extents, e.HasChunk g.chunkSizeBytes (i / g.chunkSizeBytes) := by
  obtain ⟨e, he, -, hlo, hhi, -⟩ := h.tiles.find?_flatten (fun _ k => k) (Nat.zero_le i) hi
  have hpos := g.chunkSizeBytes_pos
  refine ⟨e, he, ?_⟩
  rw [(h.aligned he).hasChunk_iff hpos, Nat.div_lt_iff_lt_mul hpos, Nat.add_mul,
    Nat.div_mul_cancel (h.start_dvd e he), Nat.div_mul_cancel (h.length_dvd e he)]
  exact ⟨Nat.div_le_div_right hlo, hhi⟩

/-- A zero write is skipped by a plan made where the volume stands for `f`, and acknowledged
where it stands for `f'`. If the bytes to write are the same in both, the volume then stands
for what the write would have left, and they read as zeros. -/
theorem skipped_zero_write_reads_zero {g : Geometry} {size : Nat} {m : Repository}
    {stores : PayloadStores} {f f' : Nat → Byte} {req : WriteRequest}
    {plan : List ExtentWritePlan} {c : Cluster} (state : VolumeState)
    (hrep : Represents g size m stores f) (hgeom : req.HasGeometry g)
    (hplan : planRequest m req = .ok plan) (hnoop : writePlanIsZeroNoop plan req = true)
    (hrep' : Represents g size c.repository c.stores f')
    (hkept : ∀ i < size, req.Writes i → f' i = f i) :
    Represents g size (beginWriteZeroNoop c.repository state req).2 c.stores
        (Window.patch f' req.offsetBytes req.bytes) ∧
      ∀ faults data, read faults
          { c with repository := (beginWriteZeroNoop c.repository state req).2 }
          ⟨req.offsetBytes, req.lengthBytes, req.pageBytes, req.chunkSizeBytes⟩ = .ok data →
        data = List.replicate (min (req.offsetBytes + req.lengthBytes) size - req.offsetBytes) 0 := by
  have hzero := (writePlanIsZeroNoop_cases hnoop).1
  have hpos := g.chunkSizeBytes_pos
  have hsame : ∀ i < size, Window.patch f' req.offsetBytes req.bytes i = f' i := by
    intro i hi
    by_cases hwrites : req.Writes i
    · obtain ⟨e, he, hin⟩ := hrep.layout.exists_hasChunk hi
      rw [hkept i hi hwrites, ← patch_eq_of_zeroNoop hrep hgeom hplan hnoop he hin
        (Nat.div_mul_le_self i _) (Nat.lt_div_mul_add hpos)]
      exact patch_congr_writes hwrites _ _
    · exact patch_of_not_writes hwrites _
  have hafter : Represents g size (beginWriteZeroNoop c.repository state req).2 c.stores
      (Window.patch f' req.offsetBytes req.bytes) := by
    have hpatched := hrep'.congr_array fun e he k hk i hlo hhi => by
      have hend := (hrep'.layout.tiles.mem_bounds e he).2.1
      have hchunk := hk.2
      unfold ExtentMappingRecord.endOffset at hchunk
      exact hsame i (by omega)
    unfold beginWriteZeroNoop
    split
    · exact hpatched
    · exact hpatched.of_same rfl rfl rfl rfl le_rfl
  refine ⟨hafter, fun faults data hread => ?_⟩
  rw [hafter.read_eq hgeom.pageBytes_eq hgeom.chunkSizeBytes_eq hread, ← Window.window_const 0
    req.offsetBytes]
  refine Window.window_congr fun i hlo hhi => Window.patch_of_mem hlo ?_
  dsimp only at hlo hhi
  rw [WriteRequest.bytes, if_pos hzero, List.getElem?_replicate, if_pos (by omega)]

namespace TwoCalls

open LegacyVolume

def zeroFirst : WriteRequest :=
  { request "k3" 0 0 with zeroSemantic := true, allowZeroNoop := true }

def acknowledged (c : Cluster) : Cluster :=
  { c with repository := (beginWriteZeroNoop c.repository ⟨1, 1, .healthy⟩ zeroFirst).2 }

/-- The first chunk is filled between the plan of a zero write and its acknowledgement, and
keeps its bytes. -/
theorem skipped_zero_write_keeps_bytes :
    ∃ plan, planRequest (cluster 0).repository zeroFirst = .ok plan ∧
      writePlanIsZeroNoop plan zeroFirst = true ∧
      read .reliable (acknowledged (afterFirst 0)) ⟨0, 4, 8, 4⟩ = .ok (List.replicate 4 65) :=
  ⟨_, rfl, by decide, by decide⟩

/-- The second chunk is filled in between. -/
def secondFilled : Cluster := (write {} 0 .reliable (cluster 0) (request "k2" 4 66)).2

/-- The zero write of the first chunk is acknowledged after the second one was filled. -/
theorem skipped_zero_write_beside_fill :
    read .reliable (acknowledged secondFilled) ⟨0, 4, 8, 4⟩ = .ok (List.replicate 4 0) ∧
      (List.replicate 4 0 : List Byte) = List.replicate (min 4 8 - 0) 0 := by
  have hread : read .reliable (acknowledged secondFilled) ⟨0, 4, 8, 4⟩ =
      .ok (List.replicate 4 0) := by decide
  have hrun : SequentialRun {} (PlainWrite geometry {}) (cluster 0) secondFilled
      (Window.patch (fun _ => 0) 4 (List.replicate 4 66)) :=
    SequentialRun.start.write 0 .reliable (request "k2" 4 66) ⟨false, true, 2⟩ ⟨rfl, ⟨rfl, rfl⟩,
      fun h => (Bool.false_ne_true h).elim, fun h => (Bool.false_ne_true h).elim⟩
      (Prod.ext (by decide) rfl)
  have hrep := (newVolume 0).represents (by decide)
  have hafter := (hrun.represents rfl (newVolume 0) (by decide)).1
  refine ⟨hread, (skipped_zero_write_reads_zero ⟨1, 1, .healthy⟩ hrep ⟨rfl, rfl⟩ rfl (by decide)
    hafter fun i _ hwrites => ?_).2 _ _ hread⟩
  exact Window.patch_of_lt hwrites.2

end TwoCalls

end Namrbd
