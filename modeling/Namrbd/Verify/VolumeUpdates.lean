import Namrbd.Verify.VolumeRecords

/-!
# Changes of a volume's spec and status

The spec and the status are put as whole records, made from records that were read
before, and no transaction compares them. `Applies` is what an operation is for: its own
change, made to the records as they are stored. An operation applies when the records it
puts back or has checked are still stored as it read them.
-/

namespace Namrbd.Gateway

open VolumePool VolumeRecords

variable {m : VolumeRecords} {call : VolumeCall} {volumeID : Nat}

def VolumeRecords.currentStatus (m : VolumeRecords) : VolumeStatusRecord := m.status.getD {}

/-- The records a write puts back or has checked. -/
def VolumeAct.reliesOnRecords : VolumeAct → VolumeRead → Bool
  | .putSpec _, .spec _ => true
  | .putStatus _, .spec _ | .putStatus _, .status _ => true
  | .putPage _ _, .spec _ | .putGarbage _, .spec _ => true
  | .attach _ _ _, .spec _ | .attach _ _ _, .status _ => true
  | .takeover _ _ _, .spec _ | .takeover _ _ _, .status _ => true
  | .detach _ _ _ _, .spec _ | .detach _ _ _ _, .status _ => true
  | .clear _ _ _, .spec _ | .clear _ _ _, .status _ => true
  | .delete, .spec _ | .delete, .attachment _ | .delete, .pages _ | .delete, .garbage _ => true
  | _, _ => false

def RecordsCurrent (act : VolumeAct) (seen : List VolumeRead) (m : VolumeRecords) : Prop :=
  ∀ r ∈ seen, act.reliesOnRecords r = true → r.Current m

instance (act : VolumeAct) (seen : List VolumeRead) (m : VolumeRecords) :
    Decidable (RecordsCurrent act seen m) :=
  inferInstanceAs (Decidable (∀ r ∈ seen, act.reliesOnRecords r = true → r.Current m))

/-! ## What the operations are for -/

def ChangesSpec (change : VolumeSpec → VolumeSpec) (m m' : VolumeRecords) : Prop :=
  ∃ spec, m.spec = some spec ∧ m' = { m with spec := some (change (normalizeVolumeSpec spec)) }

def ChangesStatus (change : VolumeStatusRecord → VolumeStatusRecord) (m m' : VolumeRecords) :
    Prop :=
  m.spec ≠ none ∧ m' = { m with status := some (change m.currentStatus) }

/-- An attachment is stored; of the spec only the state changes, of the status what names the
attachment. -/
def Attaches (req : AttachRequest) (m m' : VolumeRecords) : Prop :=
  ∃ spec record, m.spec = some spec ∧
    m' = m.withAttachment record (m.currentStatus.attachedTo req record)
      { normalizeVolumeSpec spec with state := .inUse }

/-- The attachment is removed, with the same changes. -/
def Detaches (m m' : VolumeRecords) : Prop :=
  ∃ spec generation, m.spec = some spec ∧
    m' = m.withoutAttachment generation (m.currentStatus.detachedAt generation)
      { normalizeVolumeSpec spec with state := .available }

/-- Pages or garbage change, and no other record of a volume that exists. -/
def ChangesAllocation (m m' : VolumeRecords) : Prop :=
  m.spec ≠ none ∧
    m' = { m with pages := m'.pages, garbage := m'.garbage, revision := m'.revision }

def Deletes (m m' : VolumeRecords) : Prop :=
  m.spec ≠ none ∧ m.attachment = none ∧ m.pages = [] ∧ m.garbage = [] ∧ m' = m.deleted

/-- What an operation is for: its own change to the records as they are stored. -/
def VolumeCall.Applies (volumeID : Nat) : VolumeCall → VolumeRecords → VolumeRecords → Prop
  | .updateVolume req => ChangesSpec (req.applied volumeID)
  | .setVolumeState state => ChangesSpec fun spec => { spec with state }
  | .putVolumeStatus change => ChangesStatus change
  | .attach req _ => Attaches req
  | .attachContext req _ _ acknowledge => fun m m' =>
    Attaches req m m' ∨ ChangesStatus acknowledge m m'
  | .detach _ => Detaches
  | .unsafeClearAttachment => Detaches
  | .putExtentPage _ _ => ChangesAllocation
  | .putChunkGarbage _ => ChangesAllocation
  | .deleteVolume => Deletes

variable {m' : VolumeRecords}

theorem VolumeCall.Applies.spec_ne_none (h : call.Applies volumeID m m') : m.spec ≠ none := by
  have hsome : ∀ spec : VolumeSpec, m.spec = some spec → m.spec ≠ none :=
    fun _ hspec => ne_of_eq_of_ne hspec nofun
  cases call with
  | updateVolume req | setVolumeState state => exact hsome _ h.choose_spec.1
  | putVolumeStatus change | putExtentPage pageNo expectedRevision | putChunkGarbage chunkID
  | deleteVolume => exact h.1
  | attach req now | detach req | unsafeClearAttachment =>
    obtain ⟨spec, -, hspec, -⟩ := h
    exact hsome spec hspec
  | attachContext req now allowed acknowledge =>
    obtain ⟨spec, -, hspec, -⟩ | h := h
    · exact hsome spec hspec
    · exact h.1

theorem VolumeCall.Applies.deletes (h : call.Applies volumeID m m') (hgone : m'.spec = none) :
    Deletes m m' := by
  cases call with
  | updateVolume req | setVolumeState state =>
    obtain ⟨spec, -, rfl⟩ := h
    cases hgone
  | putVolumeStatus change =>
    obtain ⟨hspec, rfl⟩ := h
    exact absurd hgone hspec
  | attach req now =>
    obtain ⟨spec, record, -, rfl⟩ := h
    cases hgone
  | attachContext req now allowed acknowledge =>
    obtain ⟨spec, record, -, rfl⟩ | ⟨hspec, rfl⟩ := h
    · cases hgone
    · exact absurd hgone hspec
  | detach req | unsafeClearAttachment =>
    obtain ⟨spec, generation, -, rfl⟩ := h
    cases hgone
  | putExtentPage pageNo expectedRevision | putChunkGarbage chunkID =>
    obtain ⟨hspec, hm'⟩ := h
    rw [hm'] at hgone
    exact absurd hgone hspec
  | deleteVolume => exact h

/-! ## The operations -/

def Identified (m : VolumeRecords) : Prop :=
  ∀ record ∈ m.attachment, record.attachmentID ≠ ""

section Step

variable {act : VolumeAct} {seen : List VolumeRead}

section

variable (hcurrent : RecordsCurrent act seen m)

include hcurrent

theorem SpecWrites.applies {change : VolumeSpec → VolumeSpec} (h : SpecWrites change act seen) :
    ChangesSpec change m (handle act m).2 := by
  cases act with
  | putSpec spec =>
    obtain ⟨stored, hstored, rfl⟩ := h
    exact ⟨stored, hcurrent _ hstored rfl, rfl⟩
  | _ => exact h.elim

theorem currentStatus_of_read {stored : Option VolumeStatusRecord} (h : .status stored ∈ seen)
    (hrelies : act.reliesOnRecords (.status stored) = true) :
    m.currentStatus = stored.getD {} := by
  rw [currentStatus, show m.status = stored from hcurrent _ h hrelies]

theorem StatusWrites.applies {change : VolumeStatusRecord → VolumeStatusRecord}
    (h : StatusWrites change act seen) : ChangesStatus change m (handle act m).2 := by
  cases act with
  | putStatus status =>
    obtain ⟨⟨spec, hspec⟩, stored, hstored, rfl⟩ := h
    refine ⟨ne_of_eq_of_ne (hcurrent _ hspec rfl) nofun, ?_⟩
    rw [currentStatus_of_read hcurrent hstored rfl]
    rfl
  | _ => exact h.elim

variable {req : AttachRequest} {now : Int}

theorem AttachWrites.applies (h : AttachWrites volumeID req now act seen) :
    (handle act m).2 = m ∨ Attaches req m (handle act m).2 := by
  cases act with
  | attach record status spec =>
    obtain ⟨storedSpec, storedStatus, -, hspec, hstat, -, -, rfl, rfl⟩ := h
    have hstat := currentStatus_of_read hcurrent hstat rfl
    simp only [handle]
    split
    · exact .inr ⟨storedSpec, record, hcurrent _ hspec rfl, by rw [hstat]⟩
    · exact .inl rfl
  | takeover record status spec =>
    obtain ⟨storedSpec, storedStatus, -, hspec, hstat, -, -, -, -, rfl, rfl⟩ := h
    have hstat := currentStatus_of_read hcurrent hstat rfl
    simp only [handle]
    split
    · exact .inl rfl
    · exact .inr ⟨storedSpec, record, hcurrent _ hspec rfl, by rw [hstat]⟩
  | _ => exact h.elim

theorem DetachWrites.applies (h : DetachWrites act seen) :
    (handle act m).2 = m ∨ Detaches m (handle act m).2 := by
  cases act with
  | detach current generation status spec =>
    obtain ⟨storedSpec, storedStatus, hspec, hstat, -, rfl, rfl⟩ := h
    have hstat := currentStatus_of_read hcurrent hstat rfl
    simp only [handle]
    split
    · exact .inr ⟨storedSpec, generation, hcurrent _ hspec rfl, by rw [hstat]⟩
    · exact .inl rfl
  | _ => exact h.elim

theorem ClearWrites.applies (h : ClearWrites act seen) : Detaches m (handle act m).2 := by
  cases act with
  | clear generation status spec =>
    obtain ⟨storedSpec, storedStatus, -, -, hspec, hstat, -, -, -, rfl, rfl⟩ := h
    have hstat := currentStatus_of_read hcurrent hstat rfl
    exact ⟨storedSpec, generation, hcurrent _ hspec rfl, by rw [hstat]; rfl⟩
  | _ => exact h.elim

theorem PageWrites.applies (h : PageWrites act seen) : ChangesAllocation m (handle act m).2 := by
  cases act with
  | putPage pageNo expectedRevision =>
    obtain ⟨spec, hspec⟩ := h
    refine ⟨ne_of_eq_of_ne (hcurrent _ hspec rfl) nofun, ?_⟩
    simp only [handle]
    split <;> rfl
  | putGarbage chunkID =>
    obtain ⟨spec, hspec⟩ := h
    exact ⟨ne_of_eq_of_ne (hcurrent _ hspec rfl) nofun, rfl⟩
  | _ => exact h.elim

theorem DeleteWrites.applies (hm : Identified m) (h : DeleteWrites act seen) :
    Deletes m (handle act m).2 := by
  cases act with
  | delete =>
    obtain ⟨⟨spec, hspec⟩, ⟨attachment, hatt, hempty⟩, hpages, hgarbage⟩ := h
    have hstored : m.attachment = attachment := hcurrent _ hatt rfl
    refine ⟨ne_of_eq_of_ne (hcurrent _ hspec rfl) nofun, ?_, hcurrent _ hpages rfl,
      hcurrent _ hgarbage rfl, rfl⟩
    subst hstored
    cases hrec : m.attachment with
    | none => rfl
    | some record =>
      rw [hrec] at hempty
      exact absurd (by simpa using hempty) (hm record hrec)
  | _ => exact h.elim

theorem VolumeCall.applies (hm : Identified m) (h : Intends (call.Writes volumeID) act seen) :
    (handle act m).2 = m ∨ call.Applies volumeID m (handle act m).2 := by
  obtain hreads | h := h
  · exact .inl (handle_of_reads hreads m)
  cases call with
  | updateVolume req => exact .inr (SpecWrites.applies hcurrent h)
  | setVolumeState state =>
    exact .inr (@SpecWrites.applies _ _ _ hcurrent (fun spec => { spec with state }) h)
  | putVolumeStatus change => exact .inr (StatusWrites.applies hcurrent h)
  | attach req now => exact AttachWrites.applies hcurrent h
  | attachContext req now allowed acknowledge =>
    obtain h | h := h
    · exact (AttachWrites.applies hcurrent h).imp_right .inl
    · exact .inr (.inr (StatusWrites.applies hcurrent h))
  | detach req => exact DetachWrites.applies hcurrent h
  | unsafeClearAttachment => exact .inr (ClearWrites.applies hcurrent h)
  | putExtentPage pageNo expectedRevision | putChunkGarbage chunkID =>
    exact .inr (PageWrites.applies hcurrent h)
  | deleteVolume => exact .inr (DeleteWrites.applies hcurrent hm h)

end

def VolumeAct.attaches : VolumeAct → Bool
  | .attach _ _ _ | .takeover _ _ _ => true
  | _ => false

theorem AttachWrites.identified (hm : Identified m) (h : AttachWrites volumeID req now act seen) :
    Identified (handle act m).2 := by
  cases act with
  | attach record status spec =>
    obtain ⟨-, -, gen, -, -, -, rfl, -, -⟩ := h
    simp only [handle]
    split
    · rintro _ ⟨⟩
      exact formatAttachmentID_ne_empty volumeID _
    · exact hm
  | takeover record status spec =>
    obtain ⟨-, -, existing, -, -, -, -, -, rfl, -, -⟩ := h
    simp only [handle]
    split
    · exact hm
    · rintro _ ⟨⟩
      exact formatAttachmentID_ne_empty volumeID _
  | _ => exact h.elim

theorem VolumeRecords.handle_attachment (hact : act.attaches = false) (m : VolumeRecords) :
    (handle act m).2.attachment = m.attachment ∨ (handle act m).2.attachment = none := by
  cases act with
  | attach record status spec | takeover record status spec => cases hact
  | detach current generation status spec =>
    simp only [handle]
    split
    · exact .inr rfl
    · exact .inl rfl
  | putPage pageNo expectedRevision =>
    simp only [handle]
    split <;> exact .inl rfl
  | clear generation status spec | delete => exact .inr rfl
  | _ => exact .inl rfl

theorem VolumeCall.Writes.attachWrites (hact : act.attaches = true)
    (h : call.Writes volumeID act seen) : ∃ req now, AttachWrites volumeID req now act seen := by
  cases call with
  | attach req now => exact ⟨req, now, h⟩
  | attachContext req now allowed acknowledge =>
    obtain h | h := h
    · exact ⟨req, now, h⟩
    · cases act <;> first | exact h.elim | cases hact
  | _ => cases act <;> first | exact h.elim | cases hact

/-- The attachments that are stored have an id, whatever the operations have read. -/
theorem Identified.handle (hm : Identified m) (h : Intends (call.Writes volumeID) act seen) :
    Identified (handle act m).2 := by
  obtain hreads | h := h
  · rwa [handle_of_reads hreads]
  cases hact : act.attaches with
  | true =>
    obtain ⟨req, now, h⟩ := h.attachWrites hact
    exact h.identified hm
  | false =>
    intro record hrec
    obtain hkept | hnone := handle_attachment hact m
    · exact hm record (hkept ▸ hrec)
    · exact nomatch hnone.symm.trans hrec

end Step

/-- In every run in which each write finds the records it puts back or has checked as they were
read: a step changes nothing, or makes the change of its operation to the records as they are
stored; the records of a volume that is gone stay as they are; and a volume goes only when it has
no attachment and no pages. -/
theorem VolumePool.changes_kept {ι : Type} [DecidableEq ι] (volumeID : Nat) (m : VolumeRecords)
    (hm : Identified m) (calls : ι → VolumeCall) (is : List ι) (i : ι) (p p' : VolumePool ι)
    (hguarded : Trace.Guarded VolumePool.step (Pool.Permitted RecordsCurrent)
      (VolumePool.start volumeID m calls) (is ++ [i]))
    (hrun : Trace.run VolumePool.step (VolumePool.start volumeID m calls) is = some p)
    (hstep : p.step i = some p') :
    (p'.store = p.store ∨ (calls i).Applies volumeID p.store p'.store) ∧
    (p.store.spec = none → p'.store = p.store) ∧
    (p.store.spec ≠ none → p'.store.spec = none →
      p.store.attachment = none ∧ p.store.pages = [] ∧ p'.store = p.store.deleted) := by
  obtain ⟨hidentified, act, seen, hallowed, hcurrent, hstore⟩ := run_step Identified
    (fun _ _ _ _ hs hallowed _ => hs.handle hallowed) hm hguarded hrun hstep
  have happlies := VolumeCall.applies hcurrent hidentified hallowed
  rw [← hstore] at happlies
  refine ⟨happlies, fun hgone => ?_, fun hexists hgone => ?_⟩
  · exact happlies.resolve_right fun h => h.spec_ne_none hgone
  obtain hsame | happlies := happlies
  · exact absurd (hsame ▸ hgone) hexists
  · obtain ⟨-, hatt, hpages, -, hdel⟩ := happlies.deletes hgone
    exact ⟨hatt, hpages, hdel⟩

/-- A volume that is grown, disabled and deleted, one call after the other. -/
def growDisableDelete : Fin 3 → VolumeCall
  | 0 => .updateVolume { sizeBytes := some 16384 }
  | 1 => .setVolumeState .disabled
  | 2 => .deleteVolume

/-- The last step is the one of the deletion. -/
theorem VolumePool.grown_disabled_deleted : ∃ p p',
      Trace.run VolumePool.step (VolumePool.start 7 createdVolume growDisableDelete)
        (List.replicate 5 0 ++ List.replicate 2 1 ++ List.replicate 8 2) = some p ∧
      p.step 2 = some p' ∧
      (p'.store = p.store ∨ (growDisableDelete 2).Applies 7 p.store p'.store) ∧
      (p.store.spec = none → p'.store = p.store) ∧
      (p.store.spec ≠ none → p'.store.spec = none →
        p.store.attachment = none ∧ p.store.pages = [] ∧ p'.store = p.store.deleted) := by
  have hsome : ((Trace.run step (start 7 createdVolume growDisableDelete)
      (List.replicate 5 0 ++ List.replicate 2 1 ++ List.replicate 8 2)).bind
        fun p => p.step 2).isSome = true := by
    decide +kernel
  obtain ⟨p', hp'⟩ := Option.isSome_iff_exists.mp hsome
  obtain ⟨p, hrun, hstep⟩ := Option.bind_eq_some_iff.mp hp'
  exact ⟨p, p', hrun, hstep, changes_kept 7 createdVolume nofun growDisableDelete _ 2
    p p' (by decide +kernel) hrun hstep⟩

/-- The update reads the volume, then the volume is disabled (and in the second run deleted too),
then the update puts its spec: the volume is available again (and the deleted volume is back). -/
theorem VolumePool.update_undoes :
    (Trace.run VolumePool.step (VolumePool.start 7 createdVolume growDisableDelete)
      (List.replicate 4 0 ++ List.replicate 2 1 ++ [0])).map
        (fun p => p.store.spec.map fun spec => (spec.sizeBytes, spec.state)) =
      some (some (16384, .available)) ∧
    (Trace.run VolumePool.step (VolumePool.start 7 createdVolume growDisableDelete)
      (List.replicate 4 0 ++ List.replicate 2 1 ++ List.replicate 9 2)).map
        (fun p => p.store.spec) = some none ∧
    (Trace.run VolumePool.step (VolumePool.start 7 createdVolume growDisableDelete)
      (List.replicate 4 0 ++ List.replicate 2 1 ++ List.replicate 9 2 ++ [0])).map
        (fun p => p.store.spec.map fun spec => (spec.sizeBytes, spec.state)) =
      some (some (16384, .available)) := by
  decide +kernel

end Namrbd.Gateway
