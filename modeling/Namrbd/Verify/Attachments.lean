import Namrbd.Verify.VolumeRecords

/-!
# Who a volume was attached to

Every attachment that is stored is an ownership period of one host, device and gateway.
A fresh attachment takes its generation from the generation key, a takeover raises the
one of the attachment it replaces and leaves the key. `Owned` is the invariant, kept by
every access that finds what it relies on as it was read (`OwnershipCurrent`); the
transactions do not compare it.
-/

namespace Namrbd.Gateway

open List Option VolumePool VolumeRecords

variable {act : VolumeAct} {seen : List VolumeRead} {volumeID : Nat} {m : VolumeRecords}

/-! ## Generations -/

/-- The generation that a reader of the records finds. -/
def VolumeRecords.observedGeneration (m : VolumeRecords) : Nat :=
  match m.attachment with
  | some record => record.generation
  | none => currentGeneration m.generation

theorem le_currentGeneration (gen : Nat) : gen ≤ currentGeneration (some gen) := by
  simp only [currentGeneration, orDefault, getD_some]
  split <;> omega

/-- The records a write of an attachment or of the generation is decided from. -/
def VolumeAct.reliesOnOwnership : VolumeAct → VolumeRead → Bool
  | .attach _ _ _, .generation _ => true
  | .takeover _ _ _, .attachment _ => true
  | .clear _ _ _, .generation _ => true
  | .clear _ _ _, .attachment _ => true
  | _, _ => false

def VolumeAct.clears : VolumeAct → Bool
  | .clear _ _ _ => true
  | _ => false

/-- What an attach or a clear has read of the attachment and the generation is still stored when
its transaction runs, and a clear finds no attachment above the generation key. -/
def OwnershipCurrent (act : VolumeAct) (seen : List VolumeRead) (m : VolumeRecords) : Prop :=
  (∀ r ∈ seen, act.reliesOnOwnership r = true → r.Current m) ∧
    (act.clears = true →
      ∀ record ∈ m.attachment, record.generation ≤ currentGeneration m.generation)

instance (act : VolumeAct) (seen : List VolumeRead) (m : VolumeRecords) :
    Decidable (OwnershipCurrent act seen m) :=
  inferInstanceAs (Decidable (_ ∧ _))

/-! ## Ownership periods -/

/-- The periods of a volume, the last one first, and what is stored. -/
structure Owned (volumeID : Nat) (m : VolumeRecords) : Prop where
  id : ∀ record ∈ m.attached, record.attachmentID = formatAttachmentID volumeID record.generation
  order : m.attached.Pairwise fun later earlier => earlier.generation < later.generation
  held : ∀ record, m.attachment = some record →
    (∃ rest, m.attached = record :: rest) ∧ currentGeneration m.generation ≤ record.generation
  free : m.attachment = none →
    ∀ record ∈ m.attached, record.generation < currentGeneration m.generation

/-- What one access makes of the attachment and its generation. -/
inductive OwnershipStep (volumeID : Nat) (m m' : VolumeRecords) : Prop
  | keep (hattachment : m'.attachment = m.attachment) (hgen : m'.generation = m.generation)
      (hattached : m'.attached = m.attached)
  | fresh (record : AttachmentRecord) (hfree : m.attachment = none)
      (hrecord : record.generation = currentGeneration m.generation)
      (hid : record.attachmentID = formatAttachmentID volumeID record.generation)
      (hattachment : m'.attachment = some record) (hgen : m'.generation = m.generation)
      (hattached : m'.attached = record :: m.attached)
  | takeover (existing record : AttachmentRecord) (hheld : m.attachment = some existing)
      (hrecord : record.generation = existing.generation + 1)
      (hid : record.attachmentID = formatAttachmentID volumeID record.generation)
      (howner : record.hostID = existing.hostID ∧ record.deviceID = existing.deviceID)
      (hattachment : m'.attachment = some record) (hgen : m'.generation = m.generation)
      (hattached : m'.attached = record :: m.attached)
  | remove (generation : Nat)
      (hheld : ∀ record, m.attachment = some record → record.generation < generation)
      (hfree : m.attachment = none → currentGeneration m.generation ≤ generation)
      (hattachment : m'.attachment = none) (hgen : m'.generation = some generation)
      (hattached : m'.attached = m.attached)

namespace OwnershipStep

variable {m' : VolumeRecords}

section

variable (h : OwnershipStep volumeID m m')

include h

theorem owned (hm : Owned volumeID m) : Owned volumeID m' := by
  cases h with
  | keep hatt hgen hattached =>
    refine ⟨?_, ?_, ?_, ?_⟩
    · rw [hattached]; exact hm.id
    · rw [hattached]; exact hm.order
    · rw [hattached, hgen, hatt]; exact hm.held
    · rw [hattached, hgen, hatt]; exact hm.free
  | fresh record hfree hrec hid hatt hgen hattached =>
    have hbelow := hm.free hfree
    refine ⟨?_, ?_, ?_, ?_⟩
    · rw [hattached]
      exact forall_mem_cons.mpr ⟨hid, hm.id⟩
    · rw [hattached]
      exact pairwise_cons.mpr ⟨fun r hr => hrec ▸ hbelow r hr, hm.order⟩
    · intro r hr
      cases hatt.symm.trans hr
      exact ⟨⟨_, hattached⟩, by rw [hgen, hrec]⟩
    · exact fun hnone => nomatch hatt.symm.trans hnone
  | takeover existing record hheld hrec hid _ hatt hgen hattached =>
    obtain ⟨⟨rest, hrest⟩, hkey⟩ := hm.held existing hheld
    refine ⟨?_, ?_, ?_, ?_⟩
    · rw [hattached]
      exact forall_mem_cons.mpr ⟨hid, hm.id⟩
    · rw [hattached]
      refine pairwise_cons.mpr ⟨fun r hr => ?_, hm.order⟩
      have horder := hm.order
      rw [hrest] at hr horder
      obtain rfl | hr := mem_cons.mp hr
      · omega
      · have := (pairwise_cons.mp horder).1 r hr
        omega
    · intro r hr
      cases hatt.symm.trans hr
      exact ⟨⟨_, hattached⟩, by rw [hgen, hrec]; omega⟩
    · exact fun hnone => nomatch hatt.symm.trans hnone
  | remove generation hheld hfree hatt hgen hattached =>
    refine ⟨?_, ?_, ?_, ?_⟩
    · rw [hattached]; exact hm.id
    · rw [hattached]; exact hm.order
    · exact fun r hr => nomatch hatt.symm.trans hr
    intro _ r hr
    rw [hattached] at hr
    rw [hgen]
    refine lt_of_lt_of_le ?_ (le_currentGeneration generation)
    cases hstored : m.attachment with
    | none => exact lt_of_lt_of_le (hm.free hstored r hr) (hfree hstored)
    | some record =>
      obtain ⟨⟨rest, hrest⟩, -⟩ := hm.held record hstored
      have horder := hm.order
      have hlt := hheld record hstored
      rw [hrest] at hr horder
      obtain rfl | hr := mem_cons.mp hr
      · exact hlt
      · exact lt_trans ((pairwise_cons.mp horder).1 r hr) hlt

theorem observedGeneration_le : m.observedGeneration ≤ m'.observedGeneration := by
  unfold observedGeneration
  cases h with
  | keep hatt hgen _ => rw [hatt, hgen]
  | fresh record hfree hrec _ hatt _ _ =>
    rw [hatt, hfree]
    exact hrec.ge
  | takeover existing record hheld hrec _ _ hatt _ _ =>
    rw [hatt, hheld]
    change existing.generation ≤ record.generation
    omega
  | remove generation hheld hfree hatt hgen _ =>
    rw [hatt, hgen]
    refine le_trans ?_ (le_currentGeneration generation)
    cases hstored : m.attachment with
    | none => exact hfree hstored
    | some record => exact (hheld record hstored).le

end

end OwnershipStep

section Step

theorem AttachWrites.ownershipStep {req : AttachRequest} {now : Int}
    (h : AttachWrites volumeID req now act seen) (hcur : OwnershipCurrent act seen m) :
    OwnershipStep volumeID m (handle act m).2 := by
  cases act with
  | attach record status spec =>
    obtain ⟨-, -, gen, -, -, hgen, hrec, -, -⟩ := h
    have hstored : m.generation = gen := hcur.1 _ hgen rfl
    simp only [handle]
    split
    · next hfree =>
      subst hrec
      exact .fresh _ hfree (by rw [hstored]; rfl) rfl rfl rfl rfl
    · exact .keep rfl rfl rfl
  | takeover record status spec =>
    obtain ⟨-, -, existing, -, -, hexist, hhost, hdevice, hrec, -, -⟩ := h
    have hstored : m.attachment = some existing := hcur.1 _ hexist rfl
    simp only [handle]
    rw [if_neg (by rw [hstored]; exact nofun)]
    subst hrec
    exact .takeover existing (existing.takenOver volumeID req now) hstored rfl rfl ⟨rfl, rfl⟩
      rfl rfl rfl
  | _ => exact False.elim h

theorem DetachWrites.ownershipStep (h : DetachWrites act seen) :
    OwnershipStep volumeID m (handle act m).2 := by
  cases act with
  | detach current generation status spec =>
    obtain ⟨-, -, -, -, hgen, -, -⟩ := h
    simp only [handle]
    split
    · next hheld =>
      refine .remove generation ?_ ?_ rfl rfl rfl
      · intro record hrec
        cases hheld.symm.trans hrec
        omega
      · exact fun hfree => nomatch hheld.symm.trans hfree
    · exact .keep rfl rfl rfl
  | _ => exact False.elim h

theorem ClearWrites.ownershipStep (hm : Owned volumeID m) (h : ClearWrites act seen)
    (hcur : OwnershipCurrent act seen m) : OwnershipStep volumeID m (handle act m).2 := by
  cases act with
  | clear generation status spec =>
    obtain ⟨-, -, gen, attachment, -, -, hgen, hatt, hgeneration, -, -⟩ := h
    have hstoredGen : m.generation = gen := hcur.1 _ hgen rfl
    have hstored : m.attachment = attachment := hcur.1 _ hatt rfl
    subst hstoredGen hstored
    refine .remove generation ?_ ?_ rfl rfl rfl
    · intro record hrec
      -- the attachment is a period of the volume, so that it has an id and the key is raised
      obtain ⟨⟨rest, hrest⟩, -⟩ := hm.held record hrec
      have hid := hm.id record (by rw [hrest]; exact mem_cons_self)
      have hbound := hcur.2 rfl record hrec
      rw [hrec, any_some, hid,
        if_pos (by simpa using formatAttachmentID_ne_empty volumeID record.generation)]
        at hgeneration
      omega
    · intro hfree
      rw [hfree] at hgeneration
      exact hgeneration.ge
  | _ => exact False.elim h

theorem ownershipStep_keep
    (h : (∃ change, SpecWrites change act seen) ∨ (∃ change, StatusWrites change act seen) ∨
      PageWrites act seen) : OwnershipStep volumeID m (handle act m).2 := by
  obtain ⟨change, h⟩ | ⟨change, h⟩ | h := h
  · cases act with
    | putSpec spec => exact .keep rfl rfl rfl
    | _ => exact False.elim h
  · cases act with
    | putStatus status => exact .keep rfl rfl rfl
    | _ => exact False.elim h
  cases act with
  | putPage pageNo expectedRevision =>
    simp only [handle]
    split <;> exact .keep rfl rfl rfl
  | putGarbage chunkID => exact .keep rfl rfl rfl
  | _ => exact False.elim h

theorem VolumeCall.ownershipStep {call : VolumeCall} (hcall : call ≠ .deleteVolume)
    (hm : Owned volumeID m) (h : Intends (call.Writes volumeID) act seen)
    (hcur : OwnershipCurrent act seen m) : OwnershipStep volumeID m (handle act m).2 := by
  obtain hreads | h := h
  · rw [handle_of_reads hreads]
    exact .keep rfl rfl rfl
  cases call with
  | updateVolume req => exact ownershipStep_keep (.inl ⟨_, h⟩)
  | setVolumeState state => exact ownershipStep_keep (.inl ⟨fun spec => { spec with state }, h⟩)
  | putVolumeStatus change => exact ownershipStep_keep (.inr (.inl ⟨_, h⟩))
  | attach req now => exact AttachWrites.ownershipStep h hcur
  | attachContext req now allowed acknowledge =>
    obtain h | h := h
    · exact AttachWrites.ownershipStep h hcur
    · exact ownershipStep_keep (.inr (.inl ⟨_, h⟩))
  | detach req => exact DetachWrites.ownershipStep h
  | unsafeClearAttachment => exact ClearWrites.ownershipStep hm h hcur
  | putExtentPage pageNo expectedRevision | putChunkGarbage chunkID =>
    exact ownershipStep_keep (.inr (.inr h))
  | deleteVolume => exact absurd rfl hcall

end Step

/-- In every run in which an attach and a clear find what they rely on as they read it and no
clear meets an attachment above the generation key: the periods of the volume have pairwise
different generations and ids, the generation reported never decreases, and an attachment is
replaced only by one of the same host and device. -/
theorem VolumePool.ownership_periods {ι : Type} [DecidableEq ι] (volumeID : Nat) (m : VolumeRecords)
    (hfree : m.attachment = none) (hnew : m.attached = []) (calls : ι → VolumeCall)
    (hcalls : ∀ i, calls i ≠ .deleteVolume) (is : List ι) (i : ι) (p p' : VolumePool ι)
    (hguarded : Trace.Guarded VolumePool.step (Pool.Permitted OwnershipCurrent)
      (VolumePool.start volumeID m calls) (is ++ [i]))
    (hrun : Trace.run VolumePool.step (VolumePool.start volumeID m calls) is = some p)
    (hstep : p.step i = some p') :
    (p'.store.attached.Pairwise fun later earlier =>
      earlier.generation < later.generation ∧ earlier.attachmentID ≠ later.attachmentID) ∧
    p.store.observedGeneration ≤ p'.store.observedGeneration ∧
    (∀ record record', p.store.attachment = some record → p'.store.attachment = some record' →
      record'.hostID = record.hostID ∧ record'.deviceID = record.deviceID) := by
  obtain ⟨howned, act, seen, hallowed, hcur, hstore⟩ := run_step (Owned volumeID)
    (fun i _ _ _ hs hallowed hcur =>
      (VolumeCall.ownershipStep (hcalls i) hs hallowed hcur).owned hs)
    (by refine ⟨?_, ?_, ?_, ?_⟩ <;> simp [hfree, hnew]) hguarded hrun hstep
  have hown := VolumeCall.ownershipStep (hcalls i) howned hallowed hcur
  rw [← hstore] at hown
  have howned' := hown.owned howned
  refine ⟨?_, hown.observedGeneration_le, fun record record' hrec hrec' => ?_⟩
  · refine List.Pairwise.imp_of_mem ?_ howned'.order
    intro later earlier hlater hearlier hlt
    refine ⟨hlt, fun hid => hlt.ne ?_⟩
    rw [howned'.id later hlater, howned'.id earlier hearlier] at hid
    exact zeroFilled_injective (String.ofList_injective ((String.append_right_inj _).mp hid))
  cases hown with
  | keep hatt _ _ =>
    cases (hatt.symm.trans hrec').symm.trans hrec
    exact ⟨rfl, rfl⟩
  | fresh _ hfree _ _ _ _ _ => exact nomatch hfree.symm.trans hrec
  | takeover existing _ hheld _ _ howner hatt _ _ =>
    cases hheld.symm.trans hrec
    cases hatt.symm.trans hrec'
    exact howner
  | remove _ _ _ hatt _ _ => exact nomatch hatt.symm.trans hrec'

def detachThenAttach : Fin 3 → VolumeCall
  | 0 => .attach ⟨"host-a", 1, "gw-1"⟩ 10
  | 1 => .detach ⟨"host-a", "att-00000007-0001"⟩
  | 2 => .attach ⟨"host-b", 2, "gw-3"⟩ 30

/-- The last step of that run stores the second attachment. -/
theorem VolumePool.detached_and_attached : ∃ p p',
      Trace.run VolumePool.step (VolumePool.start 7 createdVolume detachThenAttach)
        (List.replicate 8 0 ++ List.replicate 5 1 ++ List.replicate 7 2) = some p ∧
      p.step 2 = some p' ∧
      (p'.store.attached.Pairwise fun later earlier =>
        earlier.generation < later.generation ∧ earlier.attachmentID ≠ later.attachmentID) ∧
      p.store.observedGeneration ≤ p'.store.observedGeneration ∧
      (∀ record record', p.store.attachment = some record → p'.store.attachment = some record' →
        record'.hostID = record.hostID ∧ record'.deviceID = record.deviceID) := by
  have hsome : ((Trace.run step (start 7 createdVolume detachThenAttach)
      (replicate 8 0 ++ replicate 5 1 ++ replicate 7 2)).bind
        fun p => p.step 2).isSome = true := by
    decide +kernel
  obtain ⟨p', hp'⟩ := isSome_iff_exists.mp hsome
  obtain ⟨p, hrun, hstep⟩ := bind_eq_some_iff.mp hp'
  have hcalls : ∀ i, detachThenAttach i ≠ .deleteVolume
    | 0 => nofun
    | 1 => nofun
    | 2 => nofun
  exact ⟨p, p', hrun, hstep, ownership_periods 7 createdVolume rfl rfl
    detachThenAttach hcalls _ 2 p p' (by decide +kernel) hrun hstep⟩

/-- A takeover leaves the generation key, a clear raises the key only, and the next attachment
takes the generation and the id of the takeover. -/
theorem VolumePool.period_reused :
    (Trace.run VolumePool.step (VolumePool.start 7 createdVolume fun i : Fin 4 => match i with
        | 0 => .attach ⟨"host-a", 1, "gw-1"⟩ 10
        | 1 => .attach ⟨"host-a", 1, "gw-2"⟩ 20
        | 2 => .unsafeClearAttachment
        | 3 => .attach ⟨"host-b", 2, "gw-3"⟩ 30)
      (List.replicate 8 0 ++ List.replicate 7 1 ++ List.replicate 6 2 ++ List.replicate 8 3)).map
        (fun p => p.store.attached.map fun r =>
          (r.hostID, r.deviceID, r.ownerGatewayID, r.generation, r.attachmentID)) =
      some [("host-b", 2, "gw-3", 2, "att-00000007-0002"),
        ("host-a", 1, "gw-2", 2, "att-00000007-0002"),
        ("host-a", 1, "gw-1", 1, "att-00000007-0001")] := by
  decide +kernel

end Namrbd.Gateway
