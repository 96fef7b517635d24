import Namrbd.Gateway.ProtectedVolumes
import Namrbd.Lib.Trace
import Namrbd.Lib.Window

/-!
# Sealed volumes

Of the calls that change data only `Write` looks at the protected state, and it
looks at the record that the cache returns. A volume that is sealed in the cache as
well keeps its contents as long as no zeros are asked for (`sealed_contents_kept`);
one `Zero` changes them.
-/

namespace Namrbd.Gateway

open Text (trimSpace)

/-- The protected state of the volume is `sealed`. -/
def ServiceVolume.Sealed (volume : ServiceVolume) : Prop :=
  ∃ p, volume.protectedState = some p ∧ trimSpace p.state = "sealed"

theorem protectedWriteRejectionForVolume_ne_none {volume : ServiceVolume} (h : volume.Sealed) :
    protectedWriteRejectionForVolume volume ≠ none := by
  obtain ⟨p, hp, hstate⟩ := h
  have htwice : trimSpace "sealed" = "sealed" := by decide +kernel
  simp [protectedWriteRejectionForVolume, VolumeProtectedState.writeRejectionReason,
    VolumeProtectedState.normalize, hp, hstate, htwice]

namespace VolumeService

variable {σ α : Type} {backend : DataBackend σ} {contents : σ → α} {s s' : VolumeService σ}

/-- Writes to clones leave the contents of the volume alone. -/
def ClonesApart (backend : DataBackend σ) (contents : σ → α) : Prop :=
  ∀ writeCloneAt ∈ backend.writeCloneAt, ∀ cloneID offsetBytes data d,
    contents (writeCloneAt cloneID offsetBytes data d).2 = contents d

/-- Zeros are asked for only in ranges that the volume does not have. -/
def AsksNoZeros (s : VolumeService σ) : ServiceEvent → Prop
  | .call (.zero offsetBytes lengthBytes) | .call (.discard offsetBytes lengthBytes) =>
    ∀ volume ∈ s.volumeInfo, validateRange volume offsetBytes lengthBytes ≠ .ok ()
  | _ => True

open Result

/-- The volume is sealed, in the store and in the cache. -/
structure IsSealed (s : VolumeService σ) : Prop where
  stored : ∀ volume ∈ s.stored, volume.Sealed
  cached : ∀ volume ∈ s.cached, volume.Sealed

theorem IsSealed.volumeInfo (h : s.IsSealed) : ∀ volume ∈ s.volumeInfo, volume.Sealed := by
  intro volume hvol
  rcases Option.or_eq_some_iff.mp hvol with hcached | ⟨-, hstored⟩
  · exact h.cached volume hcached
  · exact h.stored volume hstored

/-- An event that asks for no zeros keeps a sealed volume and its contents. -/
theorem IsSealed.step (h : s.IsSealed) (hclones : ClonesApart backend contents)
    {event : ServiceEvent} (hevent : AsksNoZeros s event) (hstep : step backend s event = some s') :
    s'.IsSealed ∧ contents s'.data = contents s.data := by
  cases event with
  | expire =>
    cases hstep
    exact ⟨⟨h.stored, nofun⟩, rfl⟩
  | call call =>
    cases hstep
    unfold serve
    split
    · exact ⟨h, rfl⟩
    split
    · exact ⟨h, rfl⟩
    next volume hvol =>
    have hsealed := h.volumeInfo volume hvol
    have hcached : ∀ entry ∈ some volume, entry.Sealed := by
      rintro _ ⟨⟩
      exact hsealed
    split
    · exact ⟨⟨h.stored, hcached⟩, rfl⟩
    next op hop =>
    refine ⟨⟨h.stored, hcached⟩, ?_⟩
    cases call with
    | write offsetBytes lengthBytes data =>
      obtain ⟨-, -, hop⟩ := bind_eq_ok.mp hop
      obtain ⟨-, hop⟩ := throwIf_eq_ok.mp hop
      split at hop
      · cases hop
      next hnone => exact absurd hnone (protectedWriteRejectionForVolume_ne_none hsealed)
    | writeClone cloneID offsetBytes lengthBytes data =>
      obtain ⟨-, -, hop⟩ := bind_eq_ok.mp hop
      obtain ⟨-, hop⟩ := throwIf_eq_ok.mp hop
      split at hop
      · cases hop
      next writeCloneAt hwrite =>
      cases hop
      exact hclones writeCloneAt hwrite _ _ _ _
    | zero offsetBytes lengthBytes | discard offsetBytes lengthBytes =>
      obtain ⟨⟨⟩, hrange, _⟩ := bind_eq_ok.mp hop
      exact absurd hrange (hevent volume hvol)

/-- In every run in which no zeros are asked for, a volume that is sealed in the store and in the
cache keeps its contents. -/
theorem sealed_contents_kept (hclones : ClonesApart backend contents) (h : s.IsSealed)
    {events : List ServiceEvent} (hevents : Trace.Guarded (step backend) AsksNoZeros s events)
    (hrun : Trace.run (step backend) s events = some s') : contents s'.data = contents s.data := by
  refine (Trace.run_induction (fun t => t.IsSealed ∧ contents t.data = contents s.data) ?_ ⟨h, rfl⟩
    hevents hrun).2
  rintro t event t' ⟨ht, hsame⟩ hevent hstep
  obtain ⟨ht', hdata⟩ := ht.step hclones hevent hstep
  exact ⟨ht', hdata.trans hsame⟩

def arrayBackend : DataBackend (Nat → Byte) where
  writeAt offsetBytes data f := (.ok (), Window.patch f offsetBytes data)

def sealedVolume : ServiceVolume :=
  { blockSize := 1, sizeBytes := 4, protectedState := some { state := "sealed" } }

def sealedService : VolumeService (Nat → Byte) := ⟨some sealedVolume, some sealedVolume, fun _ => 1⟩

/-- A write to the sealed volume is refused. -/
theorem sealed_write_kept : ∃ s', Trace.run (step arrayBackend) sealedService
    [.call (.write 0 1 [2])] = some s' ∧ s'.data 0 = sealedService.data 0 := by
  have hclones : ClonesApart arrayBackend fun f => f 0 := nofun
  have hsealed : ∀ volume ∈ some sealedVolume, volume.Sealed := by
    rintro _ ⟨⟩
    exact ⟨_, rfl, by decide +kernel⟩
  have hevents : Trace.Guarded (step arrayBackend) AsksNoZeros sealedService
      [.call (.write 0 1 [2])] := ⟨trivial, fun _ _ => trivial⟩
  exact ⟨_, rfl, sealed_contents_kept hclones ⟨hsealed, hsealed⟩ hevents rfl⟩

/-- `Zero` and `Discard` are carried out on a sealed volume, and so is a `Write` while the record
in the cache is older than the seal. -/
theorem sealed_contents_change : (serve arrayBackend sealedService (.zero 0 1)).2.data 0 = 0 ∧
    (serve arrayBackend sealedService (.discard 0 1)).2.data 0 = 0 ∧
    (serve arrayBackend
      { sealedService with cached := some { sealedVolume with protectedState := none } }
      (.write 0 1 [2])).2.data 0 = 2 := by
  decide +kernel

end VolumeService

end Namrbd.Gateway
