import Namrbd.Maintenance.RetiredChunks
import Namrbd.Verify.Sweep

/-!
# What a successful sweep has gone through

A sweep that nobody interferes with may fail anywhere; if it gets to its end, what is
left of its targets is what the scan protects (`sweepTargets_from`). Without faults it
does get to its end, so that an unprotected object is deleted by some run
(`exists_sweep_deletes`): a sweep is safe for what can still be read exactly if the
roots it scans cover it.
-/

namespace Namrbd

open List Process

def GCAccess.Spares (operationID : String) : GCAccess → Prop
  | .getMutationOperation operationID' => operationID' ≠ operationID
  | .putMutationOperation record => record.operationID ≠ operationID
  | _ => True

def Faulty (act : GCAccess) (s : GCStore) (ans : Except Err act.Value) (t : GCStore) : Prop :=
  ∃ fault, s.answer act fault = (ans, t)

theorem Faulty.answers {act : GCAccess} {s t : GCStore} {ans : Except Err act.Value}
    (h : Faulty act s ans t) : GCStore.Answers act s ans t := by
  obtain ⟨_ | ⟨message, effective⟩, h⟩ := h
  · exact .inl h
  cases h
  refine .inr ⟨.other message, rfl, ?_⟩
  cases effective with
  | false => exact .inl rfl
  | true => exact .inr rfl

def GCStore.operation (volumeID : String) (s : GCStore) : Option MutationOperationRecord :=
  Table.get? (·.operationID) (payloadGCMutationOperationID volumeID) s.repository.operations

/-- A sweep is between its begin and its end. -/
structure Underway (volumeID : String) (m : Repository)
    (operation : Option MutationOperationRecord) (s : GCStore) : Prop where
  roots : m.SameRoots s.repository
  operation_eq : s.operation volumeID = operation

section Outcome

variable {m : Repository} {replicaIDs : List String} {spelling volumeID : String}
  {operation : Option MutationOperationRecord} {s t : GCStore} {α : Type} {act : GCAccess}
  {post : α → GCStore → Prop}

theorem Underway.handle (h : Underway volumeID m operation s)
    (hact : act.Spares (payloadGCMutationOperationID volumeID)) :
    Underway volumeID m operation (s.handle act).2 := by
  cases act with
  | putMutationOperation record =>
    have hroots := h.roots
    refine ⟨⟨hroots.extents, hroots.pages, hroots.snapshots, hroots.snapshotPages, hroots.clones,
      hroots.cloneDeltaPages⟩, ?_⟩
    rw [← h.operation_eq]
    exact Table.get?_put_of_ne hact _
  | deleteObject key => exact ⟨h.roots, h.operation_eq⟩
  | _ => exact h

variable {ans : Except Err act.Value} {p : GCProcess α} {x : GC α} {β γ : Type} {l : List γ}
  {targetExtentIDs : List Nat} {chunkID : Nat}

theorem Underway.faulty (h : Underway volumeID m operation s)
    (hact : act.Spares (payloadGCMutationOperationID volumeID)) (hans : Faulty act s ans t) :
    Underway volumeID m operation t :=
  hans.answers.state _ h (h.handle hact)

theorem objects_of_faulty (hans : Faulty act s ans t) : ∀ key ∈ t.objects, key ∈ s.objects := by
  refine hans.answers.state (fun t => ∀ key ∈ t.objects, key ∈ s.objects) (fun _ hkey => hkey) ?_
  cases act with
  | deleteObject key => exact fun _ hkey => mem_of_mem_filter hkey
  | _ => exact fun _ hkey => hkey

theorem MayAccessBatch.spares {stored : PayloadKey → Prop}
    (h : MayAccessBatch m stored replicaIDs spelling volumeID act) :
    act.Spares (payloadGCMutationOperationID volumeID) := by
  cases act with
  | getMutationOperation operationID | putMutationOperation record => exact h
  | _ => trivial

/-! ## A sweep on its own -/

/-- The answers of a store that a sweep is alone with. An error leads to `fail` if it comes
from a fault, or from the scan. -/
structure AnswersAlone (m : Repository) (volumeID : String)
    (operation : Option MutationOperationRecord)
    (answers : (act : GCAccess) → GCStore → Except Err act.Value → GCStore → Prop)
    (fail : GCStore → Prop) : Prop where
  faulty : ∀ {act s ans t}, answers act s ans t → Faulty act s ans t
  fails : ∀ {act s err t value}, answers act s (.error err) t → (s.handle act).1 = .ok value →
    Underway volumeID m operation t → fail t
  fail_iff : ∀ {s t}, fail s → (fail t ↔ Underway volumeID m operation t)
  scans : (∀ t, Underway volumeID m operation t → fail t) ∨
    ∀ pages ∈ m.scannedRoots, UniformGeometry pages

theorem answersAlone_handle (h : ∀ pages ∈ m.scannedRoots, UniformGeometry pages) :
    AnswersAlone m volumeID operation (fun act s ans t => s.handle act = (ans, t))
      fun _ => False := by
  refine ⟨fun hans => ⟨none, hans⟩, fun hans hok _ => ?_, False.elim, .inr h⟩
  rw [hans] at hok
  cases hok

/-- A program between the begin and the end of a sweep, from a state on. -/
abbrev SweepOn (volumeID : String)
    (answers : (act : GCAccess) → GCStore → Except Err act.Value → GCStore → Prop)
    (fail : GCStore → Prop) (x : GC α) (post : α → GCStore → Prop) (s : GCStore) : Prop :=
  Process.EnsuresFrom answers Eq (fun act _ => act.Spares (payloadGCMutationOperationID volumeID))
    fail x post s

variable (m volumeID operation) in
abbrev SweepFrom (x : GC α) (post : α → GCStore → Prop) (s : GCStore) : Prop :=
  EnsuresFrom Faulty Eq
    (fun act _ => act.Spares (payloadGCMutationOperationID volumeID))
    (Underway volumeID m operation) x post s

variable {answers : (act : GCAccess) → GCStore → Except Err act.Value → GCStore → Prop}
  {fail : GCStore → Prop}

theorem SweepOn.lift
    (h : p.wp answers Eq (fun act _ => act.Spares (payloadGCMutationOperationID volumeID)) post s) :
    SweepOn volumeID answers fail (ExceptT.lift p) post s :=
  Process.EnsuresFrom.lift (fun _ => rfl)
    (wp_mono h (fun _ _ => id) fun _ _ hpost _ heq => heq ▸ hpost)

theorem SweepOn.bind {f : α → GC β} {post' : β → GCStore → Prop}
    (h : SweepOn volumeID answers fail x post s)
    (hf : ∀ a t, post a t → SweepOn volumeID answers fail (f a) post' t) :
    SweepOn volumeID answers fail (x >>= f) post' s :=
  Process.EnsuresFrom.bind (fun _ => rfl) (fun _ _ hfail heq => heq ▸ hfail) h hf

theorem SweepOn.pure {a : α} (h : post a s) :
    SweepOn volumeID answers fail (Pure.pure a) post s :=
  Process.EnsuresFrom.pure fun _ heq => heq ▸ h

theorem SweepOn.foldlM {f : β → γ → GC β} (Inv : List γ → β → GCStore → Prop) {b : β}
    (hstart : Inv [] b s)
    (hstep : ∀ finished c rest b s, l = finished ++ c :: rest → Inv finished b s →
      SweepOn volumeID answers fail (f b c) (Inv (finished ++ [c])) s) :
    SweepOn volumeID answers fail (l.foldlM f b) (Inv l) s :=
  Process.EnsuresFrom.foldlM (fun _ => rfl) (fun _ _ hfail heq => heq ▸ hfail) Inv
    (fun _ _ _ _ hinv heq => heq ▸ hinv) hstart hstep

section Alone

variable (ha : AnswersAlone m volumeID operation answers fail)
  (hs : Underway volumeID m operation s)

include ha hs

theorem SweepOn.access {value : act.Value}
    (hact : act.Spares (payloadGCMutationOperationID volumeID))
    (hok : (s.handle act).1 = .ok value) :
    SweepOn volumeID answers fail (GC.access act)
      (fun value' t => value' = value ∧ t = (s.handle act).2) s := by
  rintro t rfl
  refine ⟨hact, fun ans u hans => ?_⟩
  rintro _ rfl
  cases ans with
  | error err => exact ha.fails hans hok (hs.faulty hact (ha.faulty hans))
  | ok value' =>
    obtain ⟨_ | fault, hans⟩ := ha.faulty hans
    · have hhandle : s.handle act = (.ok value', u) := hans
      rw [hhandle] at hok ⊢
      cases hok
      exact ⟨rfl, rfl⟩
    · cases hans

/-- What holds whatever the store holds from a state on. -/
theorem AnswersAlone.wp {post : α → Prop}
    (h : p.Holds (Truthful m (· ∈ s.objects))
      (GCAccess.Spares (payloadGCMutationOperationID volumeID)) post) :
    p.wp answers Eq (fun act _ => act.Spares (payloadGCMutationOperationID volumeID))
      (fun a t => post a ∧ Underway volumeID m operation t ∧ ∀ key ∈ t.objects, key ∈ s.objects)
      s := by
  refine Holds.wp h ⟨hs, fun _ hkey => hkey⟩ (fun _ _ hI heq => heq ▸ hI) ?_
    fun act _ _ hact => hact
  intro act t ans u hI hact hans
  have hans := ha.faulty hans
  have hshows : t.Shows m (· ∈ s.objects) := ⟨hI.1.roots, hI.2⟩
  refine ⟨(hshows.answers hans.answers).1, hI.1.faulty hact hans, fun key hkey => ?_⟩
  exact hI.2 key (objects_of_faulty hans key hkey)

theorem AnswersAlone.scanLogic :
    ScanLogic m (· ∈ s.objects) replicaIDs spelling volumeID targetExtentIDs fun _ x post =>
      SweepOn volumeID answers fail x (fun a t => post a ∧ t = s) s where
  pure h := .pure ⟨h, rfl⟩
  bind h hf := by
    refine .bind h ?_
    rintro a t ⟨ha, rfl⟩
    exact hf a ha
  read act hact hok := by
    obtain ⟨value, hvalue⟩ := hok s
    have hshows : s.Shows m (· ∈ s.objects) := ⟨hs.roots, fun _ hkey => hkey⟩
    have hpossible := hshows.truthful_handle act value (by rw [hvalue])
    refine EnsuresFrom.mono (SweepOn.access ha hs hact.spares (congrArg Prod.fst hvalue)) ?_
    rintro _ t ⟨rfl, rfl⟩
    exact ⟨hpossible, congrArg Prod.snd hvalue⟩
  addRoot pages hmem scan post hpost := by
    rintro t rfl
    cases hadd : scan.addRoot replicaIDs spelling m.extents targetExtentIDs pages with
    | ok scan' => exact ⟨hpost scan' hadd, rfl⟩
    | error err =>
      refine ha.scans.resolve_right (fun huniform => ?_) s hs
      obtain ⟨scan', hscan'⟩ := ReferenceScan.exists_addRoot_iff.mpr (huniform pages hmem)
      rw [hadd] at hscan'
      cases hscan'

end Alone

/-! ## Objects that are left -/

/-- What is left when the unprotected ones of some objects are deleted. -/
structure Swept (volumeID : String) (scan : ReferenceScan) (candidates : PayloadKey → Prop)
    (objects objects' : List PayloadKey) : Prop where
  subset : ∀ key ∈ objects', key ∈ objects
  deleted : ∀ key, candidates key → key.volumeID = volumeID → scan.keeps key = false →
    key ∉ objects'

section Swept

variable {scan : ReferenceScan} {candidates candidates' : PayloadKey → Prop}
  {objects objects' objects'' : List PayloadKey}

theorem Swept.refl : Swept volumeID scan (fun _ => False) objects objects where
  subset _ hkey := hkey
  deleted _ hkey := hkey.elim

theorem Swept.trans (h : Swept volumeID scan candidates objects objects')
    (h' : Swept volumeID scan candidates' objects' objects'') :
    Swept volumeID scan (fun key => candidates key ∨ candidates' key) objects objects'' where
  subset key hkey := h.subset key (h'.subset key hkey)
  deleted key hkey hvol hkeeps hmem := by
    rcases hkey with hkey | hkey
    · exact h.deleted key hkey hvol hkeeps (h'.subset key hmem)
    · exact h'.deleted key hkey hvol hkeeps hmem

/-- Only objects of the volume that are there count. -/
theorem Swept.mono (h : Swept volumeID scan candidates objects objects')
    (hcandidates : ∀ key ∈ objects, key.volumeID = volumeID → candidates' key → candidates key) :
    Swept volumeID scan candidates' objects objects' where
  subset := h.subset
  deleted key hkey hvol hkeeps hmem :=
    h.deleted key (hcandidates key (h.subset key hmem) hvol hkey) hvol hkeeps hmem

end Swept

/-! ## Candidates -/

/-- The objects of one replica that a batch goes over. -/
def InBatch (replicaID volumeID : String) (targetExtentIDs chunkIDs : List Nat)
    (key : PayloadKey) : Prop :=
  key.replicaID = replicaID ∧ key.volumeID = volumeID ∧
    isTarget targetExtentIDs key.extentID = true ∧ (chunkIDs = [] ∨ key.chunkID ∈ chunkIDs)

theorem isTarget_iff {extentID : Nat} :
    isTarget targetExtentIDs extentID = true ↔ targetExtentIDs = [] ∨ extentID ∈ targetExtentIDs := by
  simp [isTarget]

theorem collect_from {f : List PayloadKey → γ → GC (List PayloadKey)} (found : γ → PayloadKey → Prop)
    (hf : ∀ c ∈ l, ∀ keys, SweepOn volumeID answers fail (f keys c) (fun keys' t => t = s ∧
      (∀ key ∈ keys, key ∈ keys') ∧ ∀ key, found c key → key ∈ keys') s) :
    SweepOn volumeID answers fail (l.foldlM f [])
      (fun keys t => t = s ∧ ∀ c ∈ l, ∀ key, found c key → key ∈ keys) s := by
  refine .foldlM (fun finished keys t => t = s ∧
    ∀ c ∈ finished, ∀ key, found c key → key ∈ keys) ⟨rfl, nofun⟩ ?_
  rintro finished c rest keys t hl ⟨rfl, hkeys⟩
  refine .mono (hf c (by simp [hl]) keys) ?_
  rintro keys' t ⟨rfl, hold, hnew⟩
  refine ⟨rfl, fun c' hc' key hkey => ?_⟩
  rcases mem_append.mp hc' with hc' | hc'
  · exact hold key (hkeys c' hc' key hkey)
  · rw [mem_singleton.mp hc'] at hkey
    exact hnew key hkey

section

variable (ha : AnswersAlone m volumeID operation answers fail)
  (hs : Underway volumeID m operation s)

include ha hs

/-- The replica is listed once for each id, and the keys of the id are kept. -/
theorem collect_listed_from (replicaID : String) (ids : List Nat)
    (keeps : Nat → PayloadKey → Bool) :
    SweepOn volumeID answers fail
      (ids.foldlM (fun keys id => do
        let found ← GC.access (.listObjects replicaID volumeID)
        return keys ++ found.filter (keeps id)) [])
      (fun keys t => t = s ∧ ∀ id ∈ ids, ∀ key, (key ∈ s.objects ∧ key.replicaID = replicaID ∧
        key.volumeID = volumeID ∧ keeps id key = true) → key ∈ keys) s := by
  refine collect_from _ ?_
  intro id _ keys
  refine .bind (.access ha hs trivial rfl) ?_
  rintro value t ⟨rfl, rfl⟩
  refine .pure ⟨rfl, fun key hkey => mem_append_left _ hkey, ?_⟩
  rintro key ⟨hmem, hrepl, hvol, hkeeps⟩
  have hlisted : key ∈ t.objects.filter fun key =>
      key.replicaID == replicaID && key.volumeID == volumeID :=
    mem_filter.mpr ⟨hmem, by simp [hrepl, hvol]⟩
  exact mem_append_right _ (mem_filter.mpr ⟨hlisted, hkeeps⟩)

/-- The candidates of a store. -/
theorem listCandidatePayloadKeys_from (replicaID : String) (targetExtentIDs chunkIDs : List Nat) :
    SweepOn volumeID answers fail
      (listCandidatePayloadKeys replicaID volumeID targetExtentIDs chunkIDs)
      (fun keys t => t = s ∧ ∀ key ∈ s.objects,
        InBatch replicaID volumeID targetExtentIDs chunkIDs key → key ∈ keys) s := by
  unfold listCandidatePayloadKeys
  by_cases hchunks : chunkIDs ≠ []
  · rw [if_pos hchunks]
    unfold listExactChunkCandidateKeys
    by_cases hall : targetExtentIDs = []
    · rw [if_pos hall]
      refine .mono (collect_listed_from ha hs replicaID chunkIDs _) ?_
      rintro keys t ⟨rfl, hkeys⟩
      refine ⟨rfl, fun key hmem hin => ?_⟩
      obtain ⟨hrepl, hvol, -, hchunk⟩ := hin
      exact hkeys _ (hchunk.resolve_left hchunks) key ⟨hmem, hrepl, hvol, by simp [hvol]⟩
    · rw [if_neg hall]
      refine .mono (collect_from (fun key' key => key ∈ s.objects ∧ key = key') ?_) ?_
      · intro key' _ keys
        refine .bind (.access ha hs trivial rfl) ?_
        rintro value t ⟨rfl, rfl⟩
        refine .pure ⟨rfl, fun key hkey => ?_, ?_⟩
        · split
          · exact mem_append_left _ hkey
          · exact hkey
        · rintro key ⟨hmem, rfl⟩
          simp [hmem]
      · rintro keys t ⟨rfl, hkeys⟩
        refine ⟨rfl, fun key hmem hin => ?_⟩
        obtain ⟨hrepl, hvol, htarget, hchunk⟩ := hin
        refine hkeys key ?_ key ⟨hmem, rfl⟩
        obtain ⟨r, v, extentID, chunkID⟩ := key
        obtain rfl : r = replicaID := hrepl
        obtain rfl : v = volumeID := hvol
        exact mem_flatMap.mpr ⟨chunkID, hchunk.resolve_left hchunks, mem_map_of_mem
          ((isTarget_iff.mp htarget).resolve_left hall)⟩
  · rw [if_neg hchunks]
    by_cases hall : targetExtentIDs = []
    · rw [if_pos hall]
      refine EnsuresFrom.mono (SweepOn.access ha hs trivial rfl) ?_
      rintro value t ⟨rfl, rfl⟩
      exact ⟨rfl, fun key hmem hin => mem_filter.mpr ⟨hmem, by simp [hin.1, hin.2.1]⟩⟩
    · rw [if_neg hall]
      refine .mono (collect_listed_from ha hs replicaID targetExtentIDs _) ?_
      rintro keys t ⟨rfl, hkeys⟩
      refine ⟨rfl, fun key hmem hin => ?_⟩
      obtain ⟨hrepl, hvol, htarget, -⟩ := hin
      exact hkeys _ ((isTarget_iff.mp htarget).resolve_left hall) key ⟨hmem, hrepl, hvol, by simp⟩

/-! ## Deletions -/

variable {scan : ReferenceScan}

theorem sweepCandidate_from (replicaID : String) (progress : SweepProgress) (key : PayloadKey) :
    SweepOn volumeID answers fail (sweepCandidate volumeID replicaID scan progress key)
      (fun _ t => Underway volumeID m operation t ∧
        Swept volumeID scan (· = key) s.objects t.objects) s := by
  unfold sweepCandidate
  split
  · next hvol =>
    refine .pure ⟨hs, fun _ hmem => hmem, ?_⟩
    rintro key rfl hvol'
    exact absurd hvol' hvol
  split
  · next hkeeps =>
    refine .pure ⟨hs, fun _ hmem => hmem, ?_⟩
    rintro key rfl - hkeeps'
    simp [hkeeps] at hkeeps'
  · refine .bind (.access ha hs trivial rfl) ?_
    rintro value t ⟨rfl, rfl⟩
    have hafter : Underway volumeID m operation (s.handle (.deleteObject key)).2 := hs.handle trivial
    have hswept : Swept volumeID scan (· = key) s.objects (s.objects.filter (· ≠ key)) :=
      ⟨fun _ hmem => mem_of_mem_filter hmem, by simp⟩
    split
    · exact .pure ⟨hafter, hswept⟩
    · exact .pure ⟨hafter, hswept⟩

theorem sweepReplica_from (targetExtentIDs hintedChunkIDs : List Nat) (batch : PayloadGCChunkBatch)
    (progress : SweepProgress) (replicaID : String) :
    SweepOn volumeID answers fail
      (sweepReplica volumeID targetExtentIDs hintedChunkIDs scan batch progress replicaID)
      (fun _ t => Underway volumeID m operation t ∧ Swept volumeID scan
        (InBatch replicaID volumeID targetExtentIDs batch.chunkIDs) s.objects t.objects) s := by
  refine .bind (listCandidatePayloadKeys_from ha hs replicaID targetExtentIDs batch.chunkIDs) ?_
  rintro keys t ⟨rfl, hkeys⟩
  refine EnsuresFrom.mono (SweepOn.foldlM (fun finished _ u =>
    Underway volumeID m operation u ∧ Swept volumeID scan (· ∈ finished) t.objects u.objects)
    ⟨hs, Swept.refl.mono fun _ _ _ hkey => absurd hkey not_mem_nil⟩ ?_) ?_
  · rintro finished key rest progress u - ⟨hu, hswept⟩
    refine .mono (sweepCandidate_from ha hu replicaID progress key) ?_
    rintro progress' v ⟨hv, hstep⟩
    exact ⟨hv, (hswept.trans hstep).mono fun _ _ _ hmem => by simpa using hmem⟩
  · rintro progress' u ⟨hu, hswept⟩
    refine ⟨hu, hswept.mono fun key hmem _ hin => ?_⟩
    rw [mem_insertionSort, mem_dedup]
    exact hkeys key hmem hin

/-- The objects of all replicas that a batch goes over. -/
def InBatches (replicaIDs : List String) (targetExtentIDs chunkIDs : List Nat)
    (key : PayloadKey) : Prop :=
  key.replicaID ∈ replicaIDs ∧ isTarget targetExtentIDs key.extentID = true ∧
    (chunkIDs = [] ∨ key.chunkID ∈ chunkIDs)

/-- What a batch deletes from a store. -/
theorem sweepBatch_from (parent : Option MutationOperationRecord)
    (targetExtentIDs hintedChunkIDs : List Nat) (progress : SweepProgress)
    (batch : PayloadGCChunkBatch) :
    SweepOn volumeID answers fail (sweepBatch volumeID replicaIDs parent targetExtentIDs
      hintedChunkIDs scan progress batch)
      (fun _ t => Underway volumeID m operation t ∧ Swept volumeID scan
        (InBatches replicaIDs targetExtentIDs batch.chunkIDs) s.objects t.objects) s := by
  have hbegin : (beginSweepBatchMutationOperation volumeID parent batch).Holds
      (Truthful m (· ∈ s.objects)) (MayAccessBatch m (· ∈ s.objects) replicaIDs volumeID volumeID)
      fun operation => ∀ op, operation = some op →
        op.operationID ≠ payloadGCMutationOperationID volumeID :=
    beginSweepBatchMutationOperation_holds parent batch
  refine .bind (.lift (ha.wp hs (hbegin.imp fun _ hact => hact.spares))) ?_
  rintro batchOperation t ⟨hbatch, ht, hsubset⟩
  have hreplicas : SweepOn volumeID answers fail (replicaIDs.foldlM
      (sweepReplica volumeID targetExtentIDs hintedChunkIDs scan batch) progress)
      (fun _ u => Underway volumeID m operation u ∧ Swept volumeID scan
        (InBatches replicaIDs targetExtentIDs batch.chunkIDs) t.objects u.objects) t := by
    refine .foldlM (fun finished _ u => Underway volumeID m operation u ∧
      Swept volumeID scan (InBatches finished targetExtentIDs batch.chunkIDs) t.objects u.objects)
      ⟨ht, Swept.refl.mono fun _ _ _ hkey => absurd hkey.1 not_mem_nil⟩ ?_
    rintro finished replicaID rest progress u - ⟨hu, hswept⟩
    refine .mono (sweepReplica_from ha hu targetExtentIDs hintedChunkIDs batch progress replicaID) ?_
    rintro progress' v ⟨hv, hstep⟩
    refine ⟨hv, (hswept.trans hstep).mono fun key _ hvol hin => ?_⟩
    obtain ⟨hrepl, htarget, hchunk⟩ := hin
    rcases mem_append.mp hrepl with hrepl | hrepl
    · exact .inl ⟨hrepl, htarget, hchunk⟩
    · exact .inr ⟨mem_singleton.mp hrepl, hvol, htarget, hchunk⟩
  refine .bind (.lift hreplicas) ?_
  rintro (err | progress) u hu
  · have hunder := (ha.fail_iff hu).mp hu
    refine .bind (.lift (ha.wp hunder (failOperation_holds err hbatch))) ?_
    rintro - v ⟨-, hv, -⟩
    exact .throw fun _ heq => heq ▸ (ha.fail_iff hu).mpr hv
  obtain ⟨hu, hswept⟩ := hu
  have hswept : Swept volumeID scan (InBatches replicaIDs targetExtentIDs batch.chunkIDs) s.objects
      u.objects :=
    ⟨fun key hkey => hsubset key (hswept.subset key hkey), hswept.deleted⟩
  cases batchOperation with
  | none => exact .pure ⟨hu, hswept⟩
  | some batchOperation =>
    refine .bind (.lift (ha.wp hu (GC.attempt_holds (hbatch batchOperation rfl)))) ?_
    rintro - v ⟨-, hv, hsubset'⟩
    exact .pure ⟨hv, fun key hkey => hswept.subset key (hsubset' key hkey),
      fun key hkey hvol hkeeps hmem => hswept.deleted key hkey hvol hkeeps (hsubset' key hmem)⟩

end

/-! ## Batches -/

theorem mem_remainingChunkBatches {batchSize : Nat} (hpos : 0 < batchSize) :
    ∀ (fuel batchIndex : Nat) (chunkIDs : List Nat), chunkIDs.length ≤ fuel →
      chunkID ∈ chunkIDs →
        ∃ batch ∈ remainingChunkBatches batchSize fuel batchIndex chunkIDs,
          chunkID ∈ batch.chunkIDs := by
  intro fuel
  induction fuel with
  | zero =>
    intro batchIndex chunkIDs hlen hmem
    rw [length_eq_zero_iff.mp (Nat.le_zero.mp hlen)] at hmem
    exact absurd hmem not_mem_nil
  | succ fuel ih =>
    intro batchIndex chunkIDs hlen hmem
    cases chunkIDs with
    | nil => exact absurd hmem not_mem_nil
    | cons first rest =>
      rw [← take_append_drop batchSize (first :: rest)] at hmem
      rcases mem_append.mp hmem with hmem | hmem
      · exact ⟨_, mem_cons_self, hmem⟩
      have hdrop : ((first :: rest).drop batchSize).length ≤ fuel := by
        rw [length_drop]
        omega
      obtain ⟨batch, hbatch, hin⟩ := ih (batchIndex + 1) _ hdrop hmem
      exact ⟨batch, mem_cons_of_mem _ hbatch, hin⟩

theorem mem_buildChunkBatches (chunkBatchSize : Nat) (volumeID : String)
    (operations : Except Err (List MutationOperationRecord)) {targetChunkIDs : List Nat}
    (h : chunkID ∈ targetChunkIDs) :
    ∃ batch ∈ buildChunkBatches chunkBatchSize volumeID operations targetChunkIDs,
      chunkID ∈ batch.chunkIDs := by
  have hpos : 0 < if chunkBatchSize = 0 then 64 else chunkBatchSize := by
    split
    · decide
    · omega
  -- a target is recorded by an earlier sweep or among the remaining ones
  have hcover : ∀ (recorded : List PayloadGCChunkBatch) (nextBatchIndex : Nat),
      let remaining := targetChunkIDs.filter fun chunkID =>
        !recorded.any fun batch => decide (chunkID ∈ batch.chunkIDs)
      ∃ batch ∈ recorded ++ remainingChunkBatches
          (if chunkBatchSize = 0 then 64 else chunkBatchSize) remaining.length nextBatchIndex remaining,
        chunkID ∈ batch.chunkIDs := by
    intro recorded nextBatchIndex remaining
    by_cases hrecd : ∃ batch ∈ recorded, chunkID ∈ batch.chunkIDs
    · obtain ⟨batch, hbatch, hin⟩ := hrecd
      exact ⟨batch, mem_append_left _ hbatch, hin⟩
    have hremaining : chunkID ∈ remaining := by
      refine mem_filter.mpr ⟨h, ?_⟩
      simpa using hrecd
    obtain ⟨batch, hbatch, hin⟩ :=
      mem_remainingChunkBatches hpos _ nextBatchIndex _ le_rfl hremaining
    exact ⟨batch, mem_append_right _ hbatch, hin⟩
  unfold buildChunkBatches
  rw [if_neg (ne_nil_of_mem h)]
  exact hcover _ _

/-! ## The whole sweep -/

/-- What the roots a scan reads protect: with pages, what they reach; without any, what an
extent mapping names. -/
def Repository.Protected (m : Repository) (extentID id : Nat) : Prop :=
  (∃ pages ∈ m.scannedRoots, ReachedBy m.extents pages extentID id) ∨
    ((∀ pages ∈ m.scannedRoots, pages = []) ∧ ∃ mapping ∈ m.extents, mapping.extentID = extentID)

/-- What is left of an operation's chunks in its extents is protected. -/
def Cleared (m : Repository) (replicaIDs : List String) (volumeID : String)
    (op : MutationOperationRecord) (objects : List PayloadKey) : Prop :=
  ∀ key ∈ objects, key.replicaID ∈ replicaIDs → key.volumeID = volumeID →
    key.chunkID ≠ 0 → key.chunkID ∈ op.retiredPhysicalChunkIDs →
      key.extentID ≠ 0 → key.extentID ∈ op.affectedExtentIDs →
        m.Protected key.extentID key.chunkID

/-- The extents of an operation are targets; without an operation all extents are. -/
def CoversTargets (parent : Option MutationOperationRecord) (targetExtentIDs : List Nat) : Prop :=
  ∀ extentID, (∀ op, parent = some op → extentID ≠ 0 ∧ extentID ∈ op.affectedExtentIDs) →
    isTarget targetExtentIDs extentID = true

/-- The objects of the targets are gone, as far as a scan of the roots does not protect them. -/
def TargetsSwept (m : Repository) (replicaIDs : List String) (spelling volumeID : String)
    (parent : Option MutationOperationRecord) (objects objects' : List PayloadKey) : Prop :=
  ∃ targetExtentIDs scan, CoversTargets parent targetExtentIDs ∧
    scanRoots replicaIDs spelling targetExtentIDs m = .ok scan ∧
    Swept volumeID scan (InBatches replicaIDs targetExtentIDs (uniqueSortedUint64s
      ((parent.map (·.retiredPhysicalChunkIDs)).getD []))) objects objects'

section Targets

variable (ha : AnswersAlone m volumeID operation answers fail)
  (hs : Underway volumeID m operation s) (parent : Option MutationOperationRecord)

include ha hs

theorem sweepTargetExtentIDs_from :
    SweepOn volumeID answers fail (sweepTargetExtentIDs parent)
      (fun targetExtentIDs t => t = s ∧ CoversTargets parent targetExtentIDs) s := by
  cases parent with
  | none => exact .pure ⟨rfl, fun _ _ => rfl⟩
  | some op =>
    have hnamed : ∀ extentID, (∀ op', some op = some op' →
        extentID ≠ 0 ∧ extentID ∈ op'.affectedExtentIDs) →
          extentID ∈ uniqueSortedUint64s op.affectedExtentIDs :=
      fun _ hop => mem_uniqueSortedUint64s.mpr (hop op rfl)
    unfold sweepTargetExtentIDs
    dsimp only [Option.map_some, Option.getD_some]
    split
    · next hnone =>
      refine .bind (.access ha hs trivial rfl) ?_
      rintro mappings t ⟨rfl, rfl⟩
      refine .bind (.access ha hs trivial rfl) ?_
      rintro pages t ⟨rfl, rfl⟩
      refine .pure ⟨rfl, fun extentID hop => ?_⟩
      have hin := hnamed extentID hop
      rw [hnone.1] at hin
      exact absurd hin not_mem_nil
    · exact .pure ⟨rfl, fun extentID hop => isTarget_of_mem (hnamed extentID hop)⟩

/-- Between its begin and its end a sweep goes through all objects of its targets. -/
theorem sweepTargets_swept (replicaIDs : List String) (spelling : String) (chunkBatchSize : Nat) :
    SweepOn volumeID answers fail (sweepTargets chunkBatchSize replicaIDs spelling volumeID parent)
      (fun _ t => Underway volumeID m operation t ∧
        TargetsSwept m replicaIDs spelling volumeID parent s.objects t.objects) s := by
  refine .bind (sweepTargetExtentIDs_from ha hs parent) ?_
  rintro targetExtentIDs t ⟨rfl, htargets⟩
  refine .bind (ha.scanLogic hs).referencedPayloadKeys ?_
  rintro scan t ⟨hscan, rfl⟩
  refine .bind (.access ha hs trivial rfl) ?_
  rintro operations t ⟨rfl, rfl⟩
  have hbatches : ∀ (batches : List PayloadGCChunkBatch) (u : GCStore),
      Underway volumeID m operation u → (∀ key ∈ u.objects, key ∈ t.objects) →
      (∀ key, InBatches replicaIDs targetExtentIDs (uniqueSortedUint64s
        ((parent.map (·.retiredPhysicalChunkIDs)).getD [])) key →
          ∃ batch ∈ batches, InBatches replicaIDs targetExtentIDs batch.chunkIDs key) →
      SweepOn volumeID answers fail
        (batches.foldlM (sweepBatch volumeID replicaIDs parent targetExtentIDs
          (retiredPayloadHintChunkIDs t.repository.operations) scan)
          { results := replicaIDs.map fun replicaID => { replicaID }, deletedChunkIDs := [] })
        (fun _ v => Underway volumeID m operation v ∧
          TargetsSwept m replicaIDs spelling volumeID parent t.objects v.objects) u := by
    intro batches u hu hsubset hcover
    refine EnsuresFrom.mono (SweepOn.foldlM (fun finished _ v =>
      Underway volumeID m operation v ∧ Swept volumeID scan
        (fun key => ∃ batch ∈ finished, InBatches replicaIDs targetExtentIDs batch.chunkIDs key)
        t.objects v.objects)
      ⟨hu, hsubset, by simp⟩ ?_) ?_
    · rintro finished batch rest progress v - ⟨hv, hswept⟩
      refine .mono (sweepBatch_from ha hv parent targetExtentIDs _ progress batch) ?_
      rintro progress' w ⟨hw, hstep⟩
      refine ⟨hw, (hswept.trans hstep).mono ?_⟩
      rintro key - - ⟨batch', hbatch', hin⟩
      rcases mem_append.mp hbatch' with hbatch' | hbatch'
      · exact .inl ⟨batch', hbatch', hin⟩
      · rw [mem_singleton.mp hbatch'] at hin
        exact .inr hin
    · rintro progress v ⟨hv, hswept⟩
      exact ⟨hv, targetExtentIDs, scan, htargets, hscan,
        hswept.mono fun key _ _ hin => hcover key hin⟩
  split
  · refine hbatches _ _ hs (fun _ hkey => hkey) fun key hin => ⟨_, mem_singleton_self _, ?_⟩
    exact ⟨hin.1, hin.2.1, .inl rfl⟩
  · next hsome =>
    refine .bind (.lift (ha.wp hs (GC.attempt_holds trivial))) ?_
    rintro operations u ⟨-, hu, hsubset⟩
    refine hbatches _ _ hu hsubset fun key hin => ?_
    obtain ⟨batch, hbatch, hmem⟩ := mem_buildChunkBatches chunkBatchSize volumeID operations
      (hin.2.2.resolve_left hsome)
    exact ⟨batch, hbatch, hin.1, hin.2.1, .inr hmem⟩

end Targets

theorem sweepTargets_from (hdist : ∀ pages ∈ m.scannedRoots, DistinctPages pages)
    (hs : Underway volumeID m operation s) (chunkBatchSize : Nat)
    (parent : Option MutationOperationRecord) :
    SweepFrom m volumeID operation (sweepTargets chunkBatchSize replicaIDs spelling volumeID parent)
      (fun _ t => Underway volumeID m operation t ∧
        ∀ op, parent = some op → Cleared m replicaIDs volumeID op t.objects) s := by
  refine EnsuresFrom.mono
    (sweepTargets_swept ⟨id, fun _ _ ht => ht, fun _ => Iff.rfl, .inl fun _ ht => ht⟩ hs parent
      replicaIDs spelling chunkBatchSize) ?_
  rintro progress t ⟨ht, targetExtentIDs, scan, htargets, hscan, hswept⟩
  refine ⟨ht, ?_⟩
  rintro op rfl key hmem hrepl hvol hid hretired hext haffected
  have htarget : isTarget targetExtentIDs key.extentID = true := by
    refine htargets key.extentID ?_
    rintro _ ⟨⟩
    exact ⟨hext, haffected⟩
  have hkeeps : scan.keeps key = true := by
    by_contra hkeeps
    exact hswept.deleted key ⟨hrepl, htarget, .inr (mem_uniqueSortedUint64s.mpr ⟨hid, hretired⟩)⟩
      hvol (Bool.eq_false_iff.mpr hkeeps) hmem
  have hnot := (unprotected_iff_not_keeps hdist hscan ⟨hrepl, hvol, htarget⟩).not.mpr
    (by simp [hkeeps])
  by_contra hnone
  simp only [Repository.Protected, not_or, not_exists, not_and] at hnone
  exact hnot ⟨(finds_of_scanRoots hdist hscan).1,
    fun _ _ pages hpages => hnone.1 pages hpages, hnone.2⟩

end Outcome

/-! ## Runs -/

abbrev AloneSucceeds {α : Type} (x : GC α) (post : α → GCStore → Prop) (s : GCStore) : Prop :=
  Process.Succeeds (fun act (s : GCStore) => s.handle act) x post s

section Runs

variable {chunkBatchSize : Nat} {replicaIDs : List String} {spelling volumeID : String}
  {s : GCStore}

/-- The runs of a sweep that nothing else interferes with. -/
def SweepRuns (chunkBatchSize : Nat) (replicaIDs : List String) (spelling volumeID : String)
    (s t : GCStore) : Prop :=
  ∃ q, Process.Runs GCStore.Answers Eq
    (sweepVolume chunkBatchSize replicaIDs spelling volumeID) s q t

variable {t : GCStore} {key : PayloadKey}

theorem mem_objects_of_answers {act : GCAccess} {s : GCStore} {ans : Except Err act.Value}
    (hans : GCStore.Answers act s ans t) (hkey : key ∈ s.objects) (hne : act ≠ .deleteObject key) :
    key ∈ t.objects := by
  refine hans.state (key ∈ ·.objects) hkey ?_
  cases act with
  | deleteObject key' =>
    refine mem_filter.mpr ⟨hkey, ?_⟩
    simpa using fun h => hne (by rw [h])
  | _ => exact hkey

/-- An unprotected object is deleted by some run: the sweep fails to read the volume, is
not tracked and goes over everything. -/
theorem exists_sweep_deletes (hdistinct : ∀ pages ∈ s.repository.scannedRoots, DistinctPages pages)
    (hkey : Sweepable s.repository (· ∈ s.objects) replicaIDs spelling volumeID key) :
    ∃ t, SweepRuns chunkBatchSize replicaIDs spelling volumeID s t ∧ key ∉ t.objects := by
  obtain ⟨hrepl, hvol, -, hunprot⟩ := hkey
  have hs : Underway volumeID s.repository (s.operation volumeID) s := ⟨.refl _, rfl⟩
  have halone := sweepTargets_swept (answersAlone_handle hunprot.1) hs none replicaIDs
    spelling chunkBatchSize
  obtain ⟨progress, t, hexec, -, targetExtentIDs, scan, htargets, hscan, hswept⟩ :
      AloneSucceeds _ _ s := halone.succeeds (fun _ => rfl) fun _ _ => rfl
  have htarget := htargets key.extentID nofun
  have hkeeps := (unprotected_iff_not_keeps hdistinct hscan ⟨hrepl, hvol, htarget⟩).mp hunprot
  -- the first access fails; the rest runs without faults
  have hfirst : GCStore.Answers .getVolumeState s (.error .notFound) s :=
    .inr ⟨.notFound, rfl, .inl rfl⟩
  have hrest := exec_runs (fun act (s : GCStore) => s.handle act)
    ((sweepTargets chunkBatchSize replicaIDs spelling volumeID none).run >>= endSweep none) s
  rw [exec_bind, hexec] at hrest
  refine ⟨t, ⟨.done (.ok progress.results), .head hfirst ?_⟩,
    hswept.deleted key ⟨hrepl, htarget, .inl rfl⟩ hvol hkeeps⟩
  exact hrest.mono fun _ _ _ _ hans => .inl hans

end Runs

/-- Every run of a sweep keeps what a reader can reach, and the objects of other volumes, exactly
if the roots it scans cover what can be reached. -/
theorem sweep_keeps_reachable_iff (chunkBatchSize : Nat) (replicaIDs : List String)
    (spelling volumeID : String) (s : GCStore)
    (hdistinct : ∀ pages ∈ s.repository.scannedRoots, DistinctPages pages) :
    (∀ t, SweepRuns chunkBatchSize replicaIDs spelling volumeID s t → ∀ key ∈ s.objects,
        key.volumeID ≠ volumeID ∨ s.repository.Reachable key.extentID key.chunkID →
          key ∈ t.objects) ↔
      s.repository.Covers (· ∈ s.objects) replicaIDs spelling volumeID := by
  constructor
  · intro hkeeps huniform hnat key hkey hrepl hvol hreach
    by_contra hnone
    have hsweepable : Sweepable s.repository (· ∈ s.objects) replicaIDs spelling volumeID key := by
      refine ⟨hrepl, hvol, hkey, huniform, fun _ hspelled pages hpages hreached => ?_,
        fun hempty => ?_⟩
      · exact hnone ⟨hspelled, pages, hpages, hreached⟩
      · obtain ⟨pages, hpages, hne⟩ := hnat
        exact absurd (hempty pages hpages) hne
    obtain ⟨t, hruns, hdel⟩ := exists_sweep_deletes hdistinct hsweepable
    exact hdel (hkeeps t hruns key hkey (.inr hreach))
  · -- what is protected survives every step of the run
    rintro hcovers t ⟨q, hruns⟩ key hkey hprot
    have hheld : SweepHolds s.repository (· ∈ s.objects) replicaIDs spelling volumeID q
        (fun _ => True) ∧ t.Shows s.repository (· ∈ s.objects) ∧ key ∈ t.objects := by
      induction hruns with
      | start =>
        exact ⟨sweepVolume_holds hdistinct chunkBatchSize, ⟨.refl _, fun _ hmem => hmem⟩, hkey⟩
      | other _ hrely ih => exact hrely ▸ ih
      | access _ hans ih =>
        obtain ⟨⟨hmay, hnext⟩, hshows, hmem⟩ := ih
        obtain ⟨htruthful, hshows'⟩ := hshows.answers hans
        refine ⟨hnext _ htruthful, hshows', mem_objects_of_answers hans hmem ?_⟩
        rintro rfl
        rcases hprot with hother | hreach
        · exact hother hmay.2.1
        · exact hcovers.not_reachable hmay hreach
    exact hheld.2.2

namespace ClonedVolume

def page (id : Nat) : AllocationPageRecord :=
  { pageNo := 0, pageBytes := 4, chunkSizeBytes := 4, revision := 1
    extents := [{ logicalChunkStart := 0, chunkCount := 1, kind := .data, physicalChunkStart := id }] }

/-- A volume of one chunk with a snapshot and a clone that has overwritten the chunk. -/
def store (state : CloneState) : GCStore where
  repository := {
    volume := some { epoch := 1, revision := 1 }
    extents := [⟨1, 0, 4, 0, "p1", 1⟩]
    pages := [page 1]
    snapshots := [{ snapshotID := "s1", state := .available, cutVolumeRevision := 1,
                    allocationChunkSizeBytes := 4, allocationPageSizeBytes := 4 }]
    snapshotPages := fun snapshotID => if snapshotID = "s1" then [page 1] else []
    clones := [{ cloneID := "c1", sourceSnapshotID := "s1", cloneBaseRootID := "s1", state,
                 allocationChunkSizeBytes := 4, allocationPageSizeBytes := 4 }]
    cloneDeltaPages := fun cloneID => if cloneID = "c1" then [page 2] else [] }
  objects := [⟨"r1", "v1", 1, 1⟩, ⟨"r1", "v1", 1, 2⟩]

theorem reachable_failed : (store .failed).repository.Reachable 1 2 :=
  ⟨[page 2], by decide, ⟨1, 0, 4, 0, "p1", 1⟩, by decide, rfl, by decide, page 2, by decide, 0,
    by decide, by decide, by decide, by decide, _, rfl, rfl, rfl⟩

theorem reachable_live : (store .available).repository.Reachable 1 1 :=
  ⟨[page 1], by decide, ⟨1, 0, 4, 0, "p1", 1⟩, by decide, rfl, by decide, page 1, by decide, 0,
    by decide, by decide, by decide, by decide, _, rfl, rfl, rfl⟩

/-- The clone's own chunk is swept once the clone has failed to materialize. A sweep that spells
the volume in another way than its keys deletes the chunk of the live page. -/
theorem delta_of_failed_clone_deleted :
    (∃ t, SweepRuns 64 ["r1"] "v1" "v1" (store .failed) t ∧
      (⟨"r1", "v1", 1, 2⟩ : PayloadKey) ∈ (store .failed).objects ∧
        (store .failed).repository.Reachable 1 2 ∧ ⟨"r1", "v1", 1, 2⟩ ∉ t.objects) ∧
    ∃ t, SweepRuns 64 ["r1"] "V1" "v1" (store .available) t ∧
      (⟨"r1", "v1", 1, 1⟩ : PayloadKey) ∈ (store .available).objects ∧
        (store .available).repository.Reachable 1 1 ∧ ⟨"r1", "v1", 1, 1⟩ ∉ t.objects := by
  have hruns := fun spelling s => Process.exec_runs (fun act (s : GCStore) => s.handle act)
    (sweepVolume 64 ["r1"] spelling "v1") s
  exact ⟨⟨_, ⟨_, (hruns "v1" (store .failed)).mono fun _ _ _ _ hans => .inl hans⟩, by decide,
      reachable_failed, by decide⟩,
    ⟨_, ⟨_, (hruns "V1" (store .available)).mono fun _ _ _ _ hans => .inl hans⟩, by decide,
      reachable_live, by decide⟩⟩

/-- While the clone is available every run keeps all that can be read. -/
theorem reachable_kept :
    (∀ pages ∈ (store .available).repository.scannedRoots, DistinctPages pages) ∧
      ∀ t, SweepRuns 64 ["r1"] "v1" "v1" (store .available) t → ∀ key ∈ (store .available).objects,
        key.volumeID ≠ "v1" ∨ (store .available).repository.Reachable key.extentID key.chunkID →
          key ∈ t.objects := by
  have hdistinct : ∀ pages ∈ (store .available).repository.scannedRoots, DistinctPages pages := by
    unfold DistinctPages
    decide
  have hroots : ∀ pages ∈ (store .available).repository.readRoots,
      pages ∈ (store .available).repository.scannedRoots := by decide
  refine ⟨hdistinct, (sweep_keeps_reachable_iff 64 ["r1"] "v1" "v1" (store .available) hdistinct).mpr
    ?_⟩
  rintro - - key - - - ⟨pages, hpages, hreached⟩
  exact ⟨rfl, pages, hroots pages hpages, hreached⟩

end ClonedVolume

end Namrbd
