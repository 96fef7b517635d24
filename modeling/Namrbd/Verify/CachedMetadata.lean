import Namrbd.Gateway.CachedMetadata

/-!
# Reads through the metadata cache

A `get` that begins after an update has returned does not return an older revision
than the update has written, or has met where it failed. This holds in every run in
which a call stores a record only while it is the one the repository has, and an
update that meets another revision finds no older entry in the cache. Nothing in the
cache sees to either: a slow read stores what it has fetched over a newer entry.
-/

namespace Namrbd.Gateway

open Function List

variable {ι ρ : Type} {metadata metadata' : CachedMetadata ρ} {key : CacheKey}
  {record : Versioned ρ} {ttl : Int} {n : Nat}

/-- The key that a call updates. -/
def CacheCall.updates : CacheCall ρ → Option CacheKey
  | .putExtentPage volumeID pageNo _ _ => some (.page volumeID pageNo)
  | .updateVolume volumeID _ => some (.volume volumeID)
  | _ => none

/-- The revision that an answer tells of. -/
def CacheAnswer.revision? : CacheAnswer ρ → Option Nat
  | .record record => some record.revision
  | .conflict stored => some stored
  | .done => none

/-- Neither the repository nor the cache has the record in a revision below `n`. -/
structure Fresh (metadata : CachedMetadata ρ) (key : CacheKey) (n : Nat) : Prop where
  next : n ≤ (metadata.next key).revision
  cached : ∀ entry ∈ metadata.entries, entry.key = key → n ≤ entry.record.revision

/-- What a step does: revisions grow, and an entry is an old one or has the revision of the
repository. -/
structure Moves (metadata metadata' : CachedMetadata ρ) : Prop where
  next_le : ∀ key, (metadata.next key).revision ≤ (metadata'.next key).revision
  entry : ∀ entry ∈ metadata'.entries,
    entry ∈ metadata.entries ∨ entry.record.revision = (metadata'.next entry.key).revision

theorem Fresh.moves (h : Fresh metadata key n) (hmoves : Moves metadata metadata') :
    Fresh metadata' key n := by
  have hnext := Nat.le_trans h.next (hmoves.next_le key)
  refine ⟨hnext, fun entry hentry hkey => ?_⟩
  rcases hmoves.entry entry hentry with hold | hnew
  · exact h.cached entry hold hkey
  · rwa [hnew, hkey]

theorem Moves.of_entries (hnext : metadata'.next = metadata.next)
    (hentries : ∀ entry ∈ metadata'.entries, entry ∈ metadata.entries) :
    Moves metadata metadata' :=
  ⟨fun key => Nat.le_of_eq (by rw [hnext]), fun entry h => .inl (hentries entry h)⟩

namespace CachedMetadata

theorem mem_trim {entry : CacheEntry ρ} {entries : List (CacheEntry ρ)} (h : entry ∈ trim entries) :
    entry ∈ entries := by
  rcases mem_append.mp h with h | h
  · exact (mem_filter.mp h).1
  · exact (mem_filter.mp (mem_of_mem_take h)).1

theorem mem_store {entry : CacheEntry ρ} (h : entry ∈ (metadata.store ttl key record).entries) :
    (entry.key = key ∧ entry.record = record) ∨ (entry.key ≠ key ∧ entry ∈ metadata.entries) := by
  rcases mem_cons.mp (mem_trim h) with rfl | h
  · exact .inl ⟨rfl, rfl⟩
  · obtain ⟨hmem, hne⟩ := mem_filter.mp h
    exact .inr ⟨of_decide_eq_true hne, hmem⟩

theorem load_cases (metadata : CachedMetadata ρ) (key : CacheKey) :
    Moves metadata (metadata.load key).2 ∧ ∀ record ∈ (metadata.load key).1,
      ∃ entry ∈ metadata.entries, entry.key = key ∧ entry.record = record := by
  unfold load
  split
  · exact ⟨.of_entries rfl fun _ h => h, nofun⟩
  next entry hentry =>
  have hmem := mem_of_find?_eq_some hentry
  split
  · refine ⟨.of_entries rfl fun other hother => ?_, nofun⟩
    split at hother
    · exact (mem_filter.mp hother).1
    · exact hother
  · refine ⟨.of_entries rfl fun other hother => ?_, ?_⟩
    · rcases mem_cons.mp hother with rfl | hother
      · exact hmem
      · exact (mem_filter.mp hother).1
    · rintro _ ⟨⟩
      exact ⟨entry, hmem, by simpa using find?_some hentry, rfl⟩

theorem moves_write (hrec : record.revision = (metadata.next key).revision + 1) :
    Moves metadata (metadata.write key record) := by
  refine ⟨(forall_update_iff metadata.next fun other next =>
    (metadata.next other).revision ≤ next.revision).mpr ⟨?_, fun _ _ => Nat.le_refl _⟩,
    fun entry h => .inl h⟩
  rw [hrec]
  exact Nat.le_succ _

end CachedMetadata

open CachedMetadata

variable {calls : ι → CacheCall ρ} {s s' : CacheSystem ι ρ} {phase : CachePhase ρ}
  {call : CacheCall ρ} {next : CachePhase ρ × CachedMetadata ρ}

namespace CacheSystem

/-- The condition on a step of a call: a record is stored while it is the one of the repository,
and an update that fails finds no older entry. -/
def current (s : CacheSystem ι ρ) : CachePhase ρ → CacheCall ρ → Bool
  | .store ((key, record) :: _) _, _ => record.revision = (s.metadata.next key).revision
  | .begin, .putExtentPage volumeID pageNo expectedRevision _ =>
    let key := .page volumeID pageNo
    (s.metadata.next key).revision = expectedRevision ∨ ∀ entry ∈ s.metadata.entries,
      entry.key = key → entry.record.revision = (s.metadata.next key).revision
  | _, _ => true

/-- A step of a call moves the repository forward and leaves no entry ahead of it. -/
theorem moves_advance (hcur : s.current phase call) (hadv : s.advance ttl call phase = some next) :
    Moves s.metadata next.2 := by
  cases phase with
  | begin =>
    cases hadv
    cases call with
    | get key =>
      have hload := (s.metadata.load_cases key).1
      unfold begin
      dsimp only
      split
      · next hloaded =>
        rw [hloaded] at hload
        exact hload
      · next hloaded =>
        rw [hloaded] at hload
        exact hload
    | putExtentPage volumeID pageNo expectedRevision contents =>
      unfold begin
      dsimp only
      split
      · exact moves_write rfl
      · exact .of_entries rfl fun _ h => h
    | updateVolume volumeID update => exact moves_write rfl
    | invalidate volumeID => exact .of_entries rfl fun entry h => (mem_filter.mp h).1
    | listExtentPages keys => exact .of_entries rfl fun _ h => h
  | store records answer =>
    cases records with
    | nil =>
      cases hadv
      exact .of_entries rfl fun _ h => h
    | cons first records =>
      cases hadv
      refine ⟨fun _ => Nat.le_refl _, fun entry hentry => ?_⟩
      rcases mem_store hentry with ⟨hkey, hrec⟩ | ⟨-, hold⟩
      · rw [hrec, hkey]
        exact .inr (of_decide_eq_true hcur)
      · exact .inl hold
  | fetch key =>
    cases hadv
    exact .of_entries rfl fun _ h => h
  | returned answer => cases hadv

/-- What an update of the key has come to: it still has to store what it has written, or its
answer tells of no revision that a read could miss. -/
def Acked (metadata : CachedMetadata ρ) (key : CacheKey) : CachePhase ρ → Prop
  | .begin => True
  | .store [(key', record)] answer => key' = key ∧ answer = .record record
  | .store [] answer | .returned answer => ∀ n ∈ answer.revision?, Fresh metadata key n
  | _ => False

/-- What an update tells of stays in force until it has returned. -/
theorem Acked.advance (h : Acked s.metadata key phase) (hcall : call.updates = some key)
    (hcur : s.current phase call) (hadv : s.advance ttl call phase = some next) :
    Acked next.2 key next.1 := by
  cases phase with
  | begin =>
    cases hadv
    cases call with
    | putExtentPage volumeID pageNo expectedRevision contents =>
      cases hcall
      unfold begin
      dsimp only
      split
      · exact ⟨rfl, rfl⟩
      next hrev =>
        have hcached := (of_decide_eq_true hcur).resolve_left hrev
        rintro _ ⟨⟩
        exact ⟨Nat.le_refl _, fun entry hentry hkey =>
          Nat.le_of_eq (hcached entry hentry hkey).symm⟩
    | updateVolume volumeID update =>
      cases hcall
      exact ⟨rfl, rfl⟩
    | _ => cases hcall
  | fetch key => exact h.elim
  | store records answer =>
    match records with
    | [] =>
      cases hadv
      exact h
    | [(key', record)] =>
      obtain ⟨rfl, rfl⟩ := h
      cases hadv
      have hrev : record.revision = (s.metadata.next _).revision := of_decide_eq_true hcur
      rintro _ ⟨⟩
      refine ⟨Nat.le_of_eq hrev, fun entry hentry hkey => ?_⟩
      rcases mem_store hentry with ⟨-, hrec⟩ | ⟨hne, -⟩
      · exact hrec ▸ Nat.le_refl _
      · exact absurd hkey hne
    | _ :: _ :: _ => exact h.elim
  | returned answer => cases hadv

/-- What a `get` that began when the record was fresh has read. -/
def Reads (key : CacheKey) (n : Nat) : CachePhase ρ → Prop
  | .begin => True
  | .fetch key' => key' = key
  | .store _ answer | .returned answer => ∀ record, answer = .record record → n ≤ record.revision

theorem Reads.advance (h : Reads key n phase) (hfresh : Fresh s.metadata key n)
    (hadv : s.advance ttl (.get key) phase = some next) : Reads key n next.1 := by
  cases phase with
  | begin =>
    cases hadv
    have hload := (s.metadata.load_cases key).2
    unfold begin
    dsimp only
    split
    next record _ hloaded =>
      rw [hloaded] at hload
      obtain ⟨entry, hmem, hkey, rfl⟩ := hload record rfl
      rintro _ ⟨⟩
      exact hfresh.cached entry hmem hkey
    · rfl
  | fetch key' =>
    cases hadv
    obtain rfl : key' = key := h
    rintro _ ⟨⟩
    exact hfresh.next
  | store records answer =>
    cases records with
    | nil | cons _ _ =>
      cases hadv
      exact h
  | returned answer => cases hadv

/-- The condition on an event. -/
def Timely (calls : ι → CacheCall ρ) (s : CacheSystem ι ρ) : ι ⊕ Nat → Bool
  | .inl i => s.current (s.phase i) (calls i)
  | .inr _ => true

variable [DecidableEq ι] {event : ι ⊕ Nat}

theorem moves_step (hevent : Timely calls s event) (hstep : s.step ttl calls event = some s') :
    Moves s.metadata s'.metadata := by
  cases event with
  | inl i =>
    obtain ⟨next, hadv, rfl⟩ := Option.map_eq_some_iff.mp hstep
    exact moves_advance hevent hadv
  | inr duration =>
    cases hstep
    exact .of_entries rfl fun _ h => h

/-- A step leaves the phase of a call, or is the next one of the call. -/
theorem phase_step (hstep : s.step ttl calls event = some s') (j : ι) :
    s'.phase j = s.phase j ∨ event = .inl j ∧
      s.advance ttl (calls j) (s.phase j) = some (s'.phase j, s'.metadata) := by
  cases event with
  | inl i =>
    obtain ⟨next, hadv, rfl⟩ := Option.map_eq_some_iff.mp hstep
    by_cases hj : j = i
    · subst hj
      refine .inr ⟨rfl, hadv.trans ?_⟩
      dsimp only
      rw [update_self]
    · exact .inl (update_of_ne hj ..)
  | inr duration =>
    cases hstep
    exact .inl rfl

theorem Acked.moves (h : Acked metadata key phase) (hmoves : Moves metadata metadata') :
    Acked metadata' key phase := by
  unfold Acked at h ⊢
  split at h
  · trivial
  · exact h
  · exact fun n hn => (h n hn).moves hmoves
  · exact fun n hn => (h n hn).moves hmoves
  · exact h

/-- In every run whose steps are timely, a `get` that begins when an update of the record has
returned does not return a revision below the one the update tells of. -/
theorem get_after_update {next : CacheKey → Versioned ρ} {before after : List (ι ⊕ Nat)}
    (hevents : Trace.Guarded (step ttl calls) (Timely calls · ·) (start next) (before ++ after))
    (hbefore : Trace.run (step ttl calls) (start next) before = some s)
    (hafter : Trace.run (step ttl calls) s after = some s') {i j : ι}
    (hupdate : (calls j).updates = some key) (hget : calls i = .get key)
    {answer : CacheAnswer ρ} (hanswer : s.phase j = .returned answer)
    (hrev : answer.revision? = some n) (hbegin : s.phase i = .begin)
    (hread : s'.phase i = .returned (.record record)) : n ≤ record.revision := by
  obtain ⟨hguarded, hrest⟩ := Trace.guarded_append.mp hevents
  have hacked : Acked s.metadata key (s.phase j) := by
    have hstart : Acked (start next : CacheSystem ι ρ).metadata key .begin := trivial
    refine Trace.run_induction (fun s => Acked s.metadata key (s.phase j)) ?_ hstart hguarded hbefore
    intro s event s' h hevent hstep
    rcases phase_step hstep j with hphase | ⟨rfl, hadv⟩
    · rw [hphase]
      exact h.moves (moves_step hevent hstep)
    · exact h.advance hupdate hevent hadv
  rw [hanswer] at hacked
  have hreads : Fresh s'.metadata key n ∧ Reads key n (s'.phase i) := by
    refine Trace.run_induction (fun s => Fresh s.metadata key n ∧ Reads key n (s.phase i)) ?_
      ⟨hacked n hrev, by rw [hbegin]; trivial⟩ (hrest s hbefore) hafter
    rintro s event s' ⟨hfresh, hreads⟩ hevent hstep
    refine ⟨hfresh.moves (moves_step hevent hstep), ?_⟩
    rcases phase_step hstep i with hphase | ⟨rfl, hadv⟩
    · rwa [hphase]
    · rw [hget] at hadv
      exact hreads.advance hfresh hadv
  have hi := hreads.2
  rw [hread] at hi
  exact hi record rfl

/-- A read of a page, an update of it, and another read. -/
def pageCalls : Fin 3 → CacheCall Unit
  | 0 => .get (.page 1 0)
  | 1 => .putExtentPage 1 0 0 ()
  | 2 => .get (.page 1 0)

/-- The first read returns before the update begins. -/
theorem updated_page_read : ∃ s s', Trace.run (step 10 pageCalls) (start fun _ => ⟨0, ()⟩)
      (([0, 0, 0, 0, 1, 1, 1] : List (Fin 3)).map .inl) = some s ∧
    s.phase 1 = .returned (.record ⟨1, ()⟩) ∧ s.phase 2 = .begin ∧
    Trace.run (step 10 pageCalls) s [.inl 2] = some s' ∧
    ∃ record, s'.phase 2 = .returned (.record record) ∧ 1 ≤ record.revision := by
  have hevents : Trace.Guarded (step 10 pageCalls) (Timely pageCalls · ·) (start fun _ => ⟨0, ()⟩)
      (([0, 0, 0, 0, 1, 1, 1] : List (Fin 3)).map .inl ++ [.inl 2]) := by decide
  exact ⟨_, _, rfl, rfl, rfl, rfl, _, rfl,
    get_after_update hevents rfl rfl (i := 2) (j := 1) rfl rfl rfl rfl rfl rfl⟩

/-- It stores what it has fetched after the update has returned, and the second read returns the
page from before the update. -/
theorem updated_page_not_read : ∃ s s', Trace.run (step 10 pageCalls) (start fun _ => ⟨0, ()⟩)
      (([0, 0, 1, 1, 1, 0] : List (Fin 3)).map .inl) = some s ∧
    s.phase 1 = .returned (.record ⟨1, ()⟩) ∧ s.phase 2 = .begin ∧
    Trace.run (step 10 pageCalls) s [.inl 2] = some s' ∧
    s'.phase 2 = .returned (.record ⟨0, ()⟩) :=
  ⟨_, _, rfl, rfl, rfl, rfl, rfl⟩

end CacheSystem

end Namrbd.Gateway
