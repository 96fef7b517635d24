import Namrbd.Lib.Pool
import Namrbd.Gateway.VolumeRecords

/-!
# What an operation on a volume's records writes

An operation decides what it writes from records it has read one after the other.
The pool keeps these readings: `Writes` says, for each operation, what it may
write given what it has read, and `VolumeCall.acts` that it writes nothing else.
Whether a reading is still what is stored when the write is made (`Current`) is a
question about the interleaving, and is left to the modules that use this one.
-/

namespace Namrbd.Gateway

open List

variable {act : VolumeAct} {ι : Type}

/-! ## Attachment ids -/

theorem zeroFilled_injective {width : Nat} {m n : Nat}
    (h : zeroFilled 10 width m = zeroFilled 10 width n) : m = n := by
  have hvalue : ∀ n, Nat.ofDigitChars 10 (zeroFilled 10 width n) 0 = n := by
    intro n
    rw [zeroFilled, Nat.ofDigitChars_append, Nat.ofDigitChars_replicate_zero, Nat.mul_zero,
      Nat.ofDigitChars_ten_toDigits]
  rw [← hvalue m, h, hvalue]

theorem formatAttachmentID_ne_empty (volumeID n : Nat) : formatAttachmentID volumeID n ≠ "" := by
  intro h
  have hlen := congrArg String.length h
  simp [formatAttachmentID] at hlen

/-! ## Readings -/

inductive VolumeRead where
  | spec (stored : Option VolumeSpec)
  | status (stored : Option VolumeStatusRecord)
  | generation (stored : Option Nat)
  | attachment (stored : Option AttachmentRecord)
  | pages (stored : List (Nat × Nat))
  | garbage (stored : List Nat)
  deriving DecidableEq

def VolumeRead.Current : VolumeRead → VolumeRecords → Prop
  | .spec stored, m => m.spec = stored
  | .status stored, m => m.status = stored
  | .generation stored, m => m.generation = stored
  | .attachment stored, m => m.attachment = stored
  | .pages stored, m => m.pages = stored
  | .garbage stored, m => m.garbage = stored

instance : (r : VolumeRead) → (m : VolumeRecords) → Decidable (r.Current m)
  | .spec stored, m => inferInstanceAs (Decidable (m.spec = stored))
  | .status stored, m => inferInstanceAs (Decidable (m.status = stored))
  | .generation stored, m => inferInstanceAs (Decidable (m.generation = stored))
  | .attachment stored, m => inferInstanceAs (Decidable (m.attachment = stored))
  | .pages stored, m => inferInstanceAs (Decidable (m.pages = stored))
  | .garbage stored, m => inferInstanceAs (Decidable (m.garbage = stored))

/-- The readings of an operation since its last write. -/
def observe : (act : VolumeAct) → act.Ans → List VolumeRead → List VolumeRead
  | .readSpec, ans, seen => .spec ans :: seen
  | .readStatus, ans, seen => .status ans :: seen
  | .readGeneration, ans, seen => .generation ans :: seen
  | .readAttachment, ans, seen => .attachment ans :: seen
  | .listNames, _, seen => seen
  | .listPages, ans, seen => .pages ans :: seen
  | .listGarbage, ans, seen => .garbage ans :: seen
  | .putSpec _, _, _ => []
  | .putStatus _, _, _ => []
  | .putPage _ _, _, _ => []
  | .putGarbage _, _, _ => []
  | .attach _ _ _, _, _ => []
  | .takeover _ _ _, _, _ => []
  | .detach _ _ _ _, _, _ => []
  | .clear _ _ _, _, _ => []
  | .delete, _, _ => []

def VolumeAct.reads : VolumeAct → Bool
  | .readSpec | .readStatus | .readGeneration | .readAttachment => true
  | .listNames | .listPages | .listGarbage => true
  | _ => false

theorem VolumeRecords.handle_of_reads (h : act.reads = true) (m : VolumeRecords) :
    (VolumeRecords.handle act m).2 = m := by
  cases act <;> first | rfl | cases h

abbrev VolumePool (ι : Type) : Type :=
  Pool ι VolumeRecords (List VolumeRead) VolumeAct VolumeAct.Ans (Except MetadataErr Unit)

namespace VolumePool

variable [DecidableEq ι]

def start (volumeID : Nat) (m : VolumeRecords) (calls : ι → VolumeCall) : VolumePool ι where
  store := m
  process i := ((calls i).run volumeID).run
  seen _ := []

def step (p : VolumePool ι) (i : ι) : Option (VolumePool ι) :=
  Pool.step VolumeRecords.handle observe p i

end VolumePool

section Writes

variable (volumeID : Nat)

def StatusWrites (change : VolumeStatusRecord → VolumeStatusRecord) :
    VolumeAct → List VolumeRead → Prop
  | .putStatus status, seen =>
    (∃ spec, .spec (some spec) ∈ seen) ∧
      ∃ stored, .status stored ∈ seen ∧ status = change (stored.getD {})
  | _, _ => False

def AttachWrites (req : AttachRequest) (now : Int) : VolumeAct → List VolumeRead → Prop
  | .attach record status spec, seen =>
    ∃ storedSpec storedStatus storedGen,
      .spec (some storedSpec) ∈ seen ∧ .status storedStatus ∈ seen ∧
      .generation storedGen ∈ seen ∧
      record = freshAttachment volumeID req now (currentGeneration storedGen) ∧
      status = (storedStatus.getD {}).attachedTo req record ∧
      spec = { normalizeVolumeSpec storedSpec with state := .inUse }
  | .takeover record status spec, seen =>
    ∃ storedSpec storedStatus existing,
      .spec (some storedSpec) ∈ seen ∧ .status storedStatus ∈ seen ∧
      .attachment (some existing) ∈ seen ∧
      existing.hostID = req.hostID ∧ existing.deviceID = req.deviceID ∧
      record = existing.takenOver volumeID req now ∧
      status = (storedStatus.getD {}).attachedTo req record ∧
      spec = { normalizeVolumeSpec storedSpec with state := .inUse }
  | _, _ => False

def DetachWrites : VolumeAct → List VolumeRead → Prop
  | .detach current generation status spec, seen =>
    ∃ storedSpec storedStatus,
      .spec (some storedSpec) ∈ seen ∧ .status storedStatus ∈ seen ∧
      generation = current.generation + 1 ∧
      status = (storedStatus.getD {}).detachedAt generation ∧
      spec = { normalizeVolumeSpec storedSpec with state := .available }
  | _, _ => False

def ClearWrites : VolumeAct → List VolumeRead → Prop
  | .clear generation status spec, seen =>
    ∃ storedSpec storedStatus storedGen attachment,
      .spec (some storedSpec) ∈ seen ∧ .status storedStatus ∈ seen ∧
      .generation storedGen ∈ seen ∧ .attachment attachment ∈ seen ∧
      generation = (if attachment.any fun r => r.attachmentID ≠ "" then
        currentGeneration storedGen + 1 else currentGeneration storedGen) ∧
      status = (storedStatus.getD {}).detachedAt generation ∧
      spec = { normalizeVolumeSpec storedSpec with state := .available }
  | _, _ => False

def SpecWrites (change : VolumeSpec → VolumeSpec) : VolumeAct → List VolumeRead → Prop
  | .putSpec spec, seen =>
    ∃ stored, .spec (some stored) ∈ seen ∧ spec = change (normalizeVolumeSpec stored)
  | _, _ => False

def PageWrites : VolumeAct → List VolumeRead → Prop
  | .putPage _ _, seen => ∃ spec, .spec (some spec) ∈ seen
  | .putGarbage _, seen => ∃ spec, .spec (some spec) ∈ seen
  | _, _ => False

def DeleteWrites : VolumeAct → List VolumeRead → Prop
  | .delete, seen =>
    (∃ spec, .spec (some spec) ∈ seen) ∧
      (∃ attachment, .attachment attachment ∈ seen ∧
        attachment.all fun r => r.attachmentID = "") ∧
      .pages [] ∈ seen ∧ .garbage [] ∈ seen
  | _, _ => False

/-- What an operation may write, given what it has read. -/
def VolumeCall.Writes : VolumeCall → VolumeAct → List VolumeRead → Prop
  | .updateVolume req => SpecWrites (req.applied volumeID)
  | .setVolumeState state => SpecWrites fun spec => { spec with state }
  | .putVolumeStatus change => StatusWrites change
  | .attach req now => AttachWrites volumeID req now
  | .attachContext req now _ acknowledge => fun act seen =>
    AttachWrites volumeID req now act seen ∨ StatusWrites acknowledge act seen
  | .detach _ => DetachWrites
  | .unsafeClearAttachment => ClearWrites
  | .putExtentPage _ _ => PageWrites
  | .putChunkGarbage _ => PageWrites
  | .deleteVolume => DeleteWrites

/-- An operation makes reads, and the writes it decides on from what it has read. -/
def Intends (writes : VolumeAct → List VolumeRead → Prop) (act : VolumeAct)
    (seen : List VolumeRead) : Prop :=
  act.reads = true ∨ writes act seen

end Writes

section Ensures

variable {writes : VolumeAct → List VolumeRead → Prop}

/-- An operation makes only reads and the writes given, and its result and readings satisfy
`post`. -/
def Ensures (writes : VolumeAct → List VolumeRead → Prop) {α : Type} (x : MetadataCall α)
    (post : α → List VolumeRead → Prop) (seen : List VolumeRead) : Prop :=
  Process.EnsuresFrom (fun act seen ans seen' => seen' = observe act ans seen) Eq
    (Intends writes) (fun _ => True) x post seen

variable {α β : Type} {seen : List VolumeRead} {post : α → List VolumeRead → Prop}
  {err : MetadataErr} {x : MetadataCall α}

theorem Ensures.bind {f : α → MetadataCall β} {post' : β → List VolumeRead → Prop}
    (h : Ensures writes x post seen)
    (hf : ∀ a seen', post a seen' → Ensures writes (f a) post' seen') :
    Ensures writes (x >>= f) post' seen :=
  Process.EnsuresFrom.bind (fun _ => rfl) (fun _ _ _ _ => trivial) h hf

theorem Ensures.pure {a : α} (h : post a seen) : Ensures writes (Pure.pure a) post seen :=
  Process.EnsuresFrom.pure fun _ ht => ht ▸ h

theorem Ensures.throw : Ensures writes (MonadExcept.throw err) post seen :=
  Process.EnsuresFrom.throw fun _ _ => trivial

theorem Ensures.imp {writes' : VolumeAct → List VolumeRead → Prop} (h : Ensures writes x post seen)
    (himp : ∀ act seen, writes act seen → writes' act seen) : Ensures writes' x post seen :=
  Process.wp_mono h (fun act seen => Or.imp_right (himp act seen)) fun _ _ => id

theorem Ensures.access (h : Intends writes act seen) :
    Ensures writes (access act) (fun ans seen' => seen' = observe act ans seen) seen := by
  refine .lift (fun _ => rfl) ?_
  rintro _ rfl
  refine ⟨h, ?_⟩
  rintro ans _ rfl _ rfl _ rfl
  rfl

theorem Ensures.write (h : writes act seen) :
    Ensures writes (Gateway.access act) (fun _ _ => True) seen :=
  Process.EnsuresFrom.mono (Ensures.access (.inr h)) fun _ _ _ => trivial

theorem Ensures.check {c : Prop} {inst : Decidable c} {next : PUnit → MetadataCall β}
    {post : β → List VolumeRead → Prop} (h : ¬ c → Ensures writes (next ⟨⟩) post seen) :
    Ensures writes (if c then MonadExcept.throw err >>= next else next ⟨⟩) post seen := by
  by_cases hc : c
  · rw [if_pos hc]
    exact .throw
  · rw [if_neg hc]
    exact h hc

theorem Ensures.report {succeeded : Bool} {a : α} :
    Ensures writes (if succeeded then Pure.pure a else MonadExcept.throw err)
      (fun _ _ => True) seen := by
  split
  · exact .pure trivial
  · exact .throw

theorem getVolume_ensures : Ensures writes getVolume (fun spec seen' => seen ⊆ seen' ∧
      ∃ stored, .spec (some stored) ∈ seen' ∧ spec = normalizeVolumeSpec stored) seen := by
  refine .bind (.access (.inl rfl)) ?_
  rintro (_ | stored) _ rfl
  · exact .throw
  · exact .pure ⟨subset_cons_self _ _, stored, mem_cons_self, rfl⟩

theorem getVolumeStatus_ensures : Ensures writes getVolumeStatus (fun status seen' => seen ⊆ seen' ∧
      ∃ stored, .status stored ∈ seen' ∧ status = stored.getD {}) seen := by
  refine .bind (.access (.inl rfl)) ?_
  rintro (_ | stored) _ rfl
  · refine .bind getVolume_ensures fun _ seen' h => .pure ?_
    exact ⟨fun r hr => h.1 (mem_cons_of_mem _ hr), none, h.1 mem_cons_self, rfl⟩
  · exact .pure ⟨subset_cons_self _ _, some stored, mem_cons_self, rfl⟩

theorem getGeneration_ensures : Ensures writes getGeneration (fun gen seen' => seen ⊆ seen' ∧
      ∃ stored, .generation stored ∈ seen' ∧ gen = currentGeneration stored) seen := by
  refine .bind (.access (.inl rfl)) ?_
  rintro stored _ rfl
  exact .pure ⟨subset_cons_self _ _, stored, mem_cons_self, rfl⟩

theorem getAttachment_ensures : Ensures writes getAttachment (fun record seen' => seen ⊆ seen' ∧
      ∃ stored, .attachment stored ∈ seen' ∧
        (stored = some record ∨ stored = none ∧ record.attachmentID = "")) seen := by
  refine .bind getVolume_ensures fun _ seen1 h1 => ?_
  refine .bind (.access (.inl rfl)) ?_
  rintro (_ | stored) _ rfl
  · refine .bind getGeneration_ensures fun gen seen2 h2 => .pure ?_
    exact ⟨fun r hr => h2.1 (mem_cons_of_mem _ (h1.1 hr)), none, h2.1 mem_cons_self,
      .inr ⟨rfl, rfl⟩⟩
  · exact .pure ⟨fun r hr => mem_cons_of_mem _ (h1.1 hr), some stored, mem_cons_self, .inl rfl⟩

theorem validate_ensures {spec : VolumeSpec} {req : VolumeUpdateRequest} :
    Ensures writes (ExceptT.mk (Pure.pure (validateImmutableVolumeGeometry spec req)))
      (fun _ seen' => seen' = seen) seen := by
  unfold validateImmutableVolumeGeometry
  dsimp only
  split
  · exact .throw
  · exact .pure rfl

theorem checkVolumeName_ensures {isAttached : Bool} {name : Option String} :
    Ensures writes (checkVolumeName isAttached name) (fun _ seen' => seen' = seen) seen := by
  cases name with
  | none => exact .pure rfl
  | some name =>
    unfold checkVolumeName
    refine .check fun _ => ?_
    refine .check fun _ => ?_
    refine .bind (.access (.inl rfl)) ?_
    rintro names _ rfl
    split
    · exact .throw
    · exact .pure rfl

end Ensures

/-! ## Each operation does what it intends -/

theorem updateVolume_ensures (volumeID : Nat) (req : VolumeUpdateRequest) (seen : List VolumeRead) :
    Ensures (SpecWrites (req.applied volumeID)) (updateVolume volumeID req)
      (fun _ _ => True) seen := by
  refine .bind getVolume_ensures ?_
  rintro _ seen1 ⟨-, stored, hstored, rfl⟩
  refine .bind getAttachment_ensures fun attachment seen2 h2 => ?_
  refine .bind validate_ensures ?_
  rintro _ _ rfl
  refine .bind checkVolumeName_ensures ?_
  rintro _ _ rfl
  exact .check fun _ => .write ⟨stored, h2.1 hstored, rfl⟩

theorem putVolumeStatus_ensures (change : VolumeStatusRecord → VolumeStatusRecord)
    (seen : List VolumeRead) :
    Ensures (StatusWrites change) (putVolumeStatus change) (fun _ _ => True) seen := by
  refine .bind getVolumeStatus_ensures ?_
  rintro _ seen1 ⟨-, status, hstat, rfl⟩
  refine .bind getVolume_ensures ?_
  rintro _ seen2 ⟨hsub, spec, hspec, rfl⟩
  exact .write ⟨⟨spec, hspec⟩, status, hsub hstat, rfl⟩

theorem attach_ensures (volumeID : Nat) (req : AttachRequest) (now : Int) (seen : List VolumeRead) :
    Ensures (AttachWrites volumeID req now) (attach volumeID req now) (fun _ _ => True) seen := by
  refine .bind getVolume_ensures fun _ seen1 _ => ?_
  refine .bind getVolume_ensures ?_
  rintro _ seen2 ⟨-, spec, hspec, rfl⟩
  refine .check fun _ => ?_
  refine .bind getVolumeStatus_ensures ?_
  rintro _ seen3 ⟨hsub3, status, hstat, rfl⟩
  refine .bind getGeneration_ensures ?_
  rintro _ seen4 ⟨hsub4, gen, hgen, rfl⟩
  refine .bind getAttachment_ensures ?_
  rintro existing seen5 ⟨hsub5, stored, hstored, hexist⟩
  have hspec5 := hsub5 (hsub4 (hsub3 hspec))
  have hstat5 := hsub5 (hsub4 hstat)
  split
  · next hattached =>
    have hsome : stored = some existing := hexist.resolve_right fun h => hattached h.2
    subst hsome
    split
    · next howner =>
      split
      · exact .pure trivial
      · refine .bind (.access (.inr ?_)) fun succeeded _ _ => .report
        exact ⟨spec, status, existing, hspec5, hstat5, hstored, howner.1, howner.2, rfl, rfl, rfl⟩
    · exact .throw
  · refine .bind (.access (.inr ?_)) fun succeeded _ _ => .report
    exact ⟨spec, status, gen, hspec5, hstat5, hsub5 hgen, rfl, rfl, rfl⟩

theorem detach_ensures (req : DetachRequest) (seen : List VolumeRead) :
    Ensures DetachWrites (detach req) (fun _ _ => True) seen := by
  refine .bind getVolume_ensures ?_
  rintro _ seen1 ⟨-, spec, hspec, rfl⟩
  refine .bind getAttachment_ensures fun current seen2 h2 => ?_
  split
  · exact .pure trivial
  split
  · exact .throw
  refine .bind getVolumeStatus_ensures ?_
  rintro _ seen3 ⟨hsub, status, hstat, rfl⟩
  refine .bind (.access (.inr ?_)) fun succeeded _ _ => .report
  exact ⟨spec, status, hsub (h2.1 hspec), hstat, rfl, rfl, rfl⟩

theorem unsafeClearAttachment_ensures (seen : List VolumeRead) :
    Ensures ClearWrites unsafeClearAttachment (fun _ _ => True) seen := by
  refine .bind getVolume_ensures ?_
  rintro _ seen1 ⟨-, spec, hspec, rfl⟩
  refine .bind getAttachment_ensures ?_
  rintro current seen2 ⟨hsub2, stored, hstored, hcur⟩
  refine .bind getGeneration_ensures ?_
  rintro _ seen3 ⟨hsub3, gen, hgen, rfl⟩
  refine .bind getVolumeStatus_ensures ?_
  rintro _ seen4 ⟨hsub4, status, hstat, rfl⟩
  refine .write ⟨spec, status, gen, stored, hsub4 (hsub3 (hsub2 hspec)), hstat, hsub4 hgen,
    hsub4 (hsub3 hstored), ?_, rfl, rfl⟩
  obtain rfl | ⟨rfl, hempty⟩ := hcur
  · simp
  · simp [hempty]

theorem deleteVolume_ensures (seen : List VolumeRead) :
    Ensures DeleteWrites deleteVolume (fun _ _ => True) seen := by
  refine .bind getVolume_ensures ?_
  rintro _ seen1 ⟨-, spec, hspec, rfl⟩
  refine .bind getAttachment_ensures ?_
  rintro current seen2 ⟨hsub2, stored, hstored, hcur⟩
  refine .check fun hdetached => ?_
  refine .check fun _ => ?_
  refine .bind getVolume_ensures fun _ seen3 h3 => ?_
  refine .bind (.access (.inl rfl)) ?_
  rintro pages _ rfl
  refine .check fun hpages => ?_
  refine .bind getVolume_ensures fun _ seen4 h4 => ?_
  refine .bind (.access (.inl rfl)) ?_
  rintro garbage _ rfl
  refine .check fun hgarbage => ?_
  obtain rfl := not_not.mp hpages
  obtain rfl := not_not.mp hgarbage
  have hkept : ∀ r ∈ seen2, r ∈ observe .listGarbage [] seen4 := fun r hr =>
    mem_cons_of_mem _ (h4.1 (mem_cons_of_mem _ (h3.1 hr)))
  refine .write ⟨⟨spec, hkept _ (hsub2 hspec)⟩, ⟨stored, hkept _ hstored, ?_⟩,
    mem_cons_of_mem _ (h4.1 mem_cons_self), mem_cons_self⟩
  obtain rfl | ⟨rfl, -⟩ := hcur
  · simpa using hdetached
  · rfl

/-- An operation makes no access that it does not intend. -/
theorem VolumeCall.acts (volumeID : Nat) (call : VolumeCall) :
    Pool.Acts observe (Intends (call.Writes volumeID)) (call.run volumeID).run [] := by
  have hensures : Ensures (call.Writes volumeID) (call.run volumeID) (fun _ _ => True) [] := by
    cases call with
    | updateVolume req => exact updateVolume_ensures volumeID req []
    | setVolumeState state =>
      refine .bind getVolume_ensures ?_
      rintro _ seen ⟨-, stored, hstored, rfl⟩
      exact .write ⟨stored, hstored, rfl⟩
    | putVolumeStatus change => exact putVolumeStatus_ensures change []
    | attach req now =>
      exact .bind (attach_ensures volumeID req now []) fun _ _ _ => .pure trivial
    | attachContext req now allowed acknowledge =>
      unfold run Gateway.attachContext
      refine .check fun _ => ?_
      refine .bind getVolume_ensures fun _ seen1 _ => ?_
      refine .check fun _ => ?_
      refine .bind getVolumeStatus_ensures fun _ seen2 _ => ?_
      refine .check fun _ => ?_
      refine .bind ((attach_ensures volumeID req now seen2).imp fun _ _ => .inl)
        fun _ seen3 _ => ?_
      split
      · exact (putVolumeStatus_ensures acknowledge seen3).imp fun _ _ => .inr
      · exact .pure trivial
    | detach req => exact detach_ensures req []
    | unsafeClearAttachment => exact unsafeClearAttachment_ensures []
    | putExtentPage pageNo expectedRevision =>
      refine .bind getVolume_ensures ?_
      rintro _ seen ⟨-, spec, hspec, rfl⟩
      exact .bind (.access (.inr ⟨spec, hspec⟩)) fun succeeded _ _ => .report
    | putChunkGarbage chunkID =>
      refine .bind getVolume_ensures ?_
      rintro _ seen ⟨-, spec, hspec, rfl⟩
      exact .write ⟨spec, hspec⟩
    | deleteVolume => exact deleteVolume_ensures []
  exact Process.wp_mono hensures (fun _ _ => id) fun _ _ _ => trivial

/-- The last step of a run whose accesses are all permitted: one operation makes an access that
it intends, in a state that satisfies an invariant of the permitted accesses. -/
theorem VolumePool.run_step [DecidableEq ι] {volumeID : Nat} {m : VolumeRecords}
    {calls : ι → VolumeCall} {permits : VolumeAct → List VolumeRead → VolumeRecords → Prop}
    (I : VolumeRecords → Prop)
    (hkeep : ∀ i act seen m, I m → Intends ((calls i).Writes volumeID) act seen →
      permits act seen m → I (VolumeRecords.handle act m).2) (hI : I m) {is : List ι} {i : ι}
    {p p' : VolumePool ι}
    (hguarded : Trace.Guarded VolumePool.step (Pool.Permitted permits) (start volumeID m calls)
      (is ++ [i])) (hrun : Trace.run VolumePool.step (start volumeID m calls) is = some p)
    (hstep : p.step i = some p') :
    I p.store ∧ ∃ act seen, Intends ((calls i).Writes volumeID) act seen ∧
      permits act seen p.store ∧ p'.store = (VolumeRecords.handle act p.store).2 := by
  have hacts : Pool.AllAct observe (fun i => Intends ((calls i).Writes volumeID))
      (start volumeID m calls) := fun i => (calls i).acts volumeID
  obtain ⟨hp, act, hact⟩ := Pool.run_step I hkeep hI hacts hguarded hrun hstep
  exact ⟨hp, act, p.seen i, hact⟩

def createdVolume : VolumeRecords where
  spec := some ⟨"v", "v-00000007", 8192, 4096, 65536, 4194304, .exclusive, .available⟩
  status := some {}
  generation := some 1

end Namrbd.Gateway
