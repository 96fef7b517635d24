import Namrbd.Node.ObjectStore
import Mathlib.Logic.Function.Basic

/-!
# What a get returns after a put

In this edition a put that succeeds stores the value as it is, whatever policy is in
force, and policies do not touch the databases. So a get returns the value unless it
takes the bytes for compressed ones: it fails for chunks and objects that begin like
an envelope (`get_of_put`).
-/

namespace Namrbd.Node

open Function Result

/-- A key of a chunk or of an object. -/
def HoldsPayload (key : String) : Prop :=
  ∃ route, parseObjectKey key = .ok route ∧ (route.isChunk || route.isObject) = true

namespace ObjectStore

variable {s s' : ObjectStore} {key : String} {value : List Byte}

theorem encode_ok {route : ParsedObjectKey} {stored : List Byte}
    (h : s.encode key route value = .ok stored) : stored = value := by
  unfold encode at h
  split at h
  · cases h
    rfl
  split at h
  · next policy _ hcompress =>
    simp only [Bool.and_eq_true, decide_eq_true_eq] at hcompress
    rw [compressionCodec, if_neg hcompress.2] at h
    cases h
  · cases h
    rfl

def SameObjects (s s' : ObjectStore) : Prop := s'.shards = s.shards ∧ s'.dbs = s.dbs

theorem SameObjects.trans {s'' : ObjectStore} (h : s.SameObjects s') (h' : s'.SameObjects s'') :
    s.SameObjects s'' :=
  ⟨h'.1.trans h.1, h'.2.trans h.2⟩

theorem applyCompressionPolicy_sameObjects {policy : CompressionPolicy} {aliases : List String}
    (h : s.applyCompressionPolicy policy aliases = .ok s') : s.SameObjects s' := by
  unfold applyCompressionPolicy at h
  split at h
  · cases h
  split at h
  · cases h
  obtain ⟨codec, -, h⟩ := bind_eq_ok.mp h
  split at h
  · cases h
    exact ⟨rfl, rfl⟩
  split at h
  · cases h
  split at h
  · cases h
    exact ⟨rfl, rfl⟩
  split at h
  · cases h
  · cases h
    exact ⟨rfl, rfl⟩

theorem handle_sameObjects {event : PolicyEvent} (h : s.handle event = some s') :
    s.SameObjects s' := by
  cases event with
  | apply policy aliases =>
    cases h
    cases happly : s.applyCompressionPolicy policy aliases with
    | error err => exact ⟨rfl, rfl⟩
    | ok s' => exact applyCompressionPolicy_sameObjects happly
  | remove volumeID aliases =>
    cases h
    exact ⟨rfl, rfl⟩
  | restart policies =>
    cases hopen : policies.foldlM (fun s p => applyCompressionPolicy s p.1 p.2)
        { s with compression := fun _ => none } with
    | error err =>
      rw [handle, hopen] at h
      cases h
    | ok opened =>
      rw [handle, hopen] at h
      cases h
      exact foldlM_of_forall s.SameObjects hopen ⟨rfl, rfl⟩
        fun _ _ _ _ h1 hstep => h1.trans (applyCompressionPolicy_sameObjects hstep)

/-- A get after a put, with any history of policies and restarts in between, returns the value
unless the key is one of a chunk or an object and the value looks like an envelope. -/
theorem get_of_put {s₁ s₂ : ObjectStore} {events : List PolicyEvent} (hput : s.put key value = .ok s₁)
    (hrun : Trace.run handle s₁ events = some s₂) :
    s₂.get key = .ok (some value) ↔
      ¬(HoldsPayload key ∧ (isEnvelope value ∨ isLegacyEnvelope value)) := by
  obtain ⟨route, hroute, hput⟩ := bind_eq_ok.mp hput
  obtain ⟨⟨db, internalKey⟩, hkey, hput⟩ := bind_eq_ok.mp hput
  obtain ⟨stored, hstored, hput⟩ := bind_eq_ok.mp hput
  cases hput
  obtain ⟨hshards', hdbs⟩ := Trace.run_invariant (SameObjects _)
    (fun _ _ _ h hstep => h.trans (handle_sameObjects hstep)) ⟨rfl, rfl⟩ hrun
  have hkey' : s₂.routeKey key = .ok (db, internalKey) := by
    rw [← hkey]
    unfold routeKey dbForRoute
    rw [hshards']
  have hpay : HoldsPayload key ↔ (route.isChunk || route.isObject) = true := by
    simp [HoldsPayload, hroute]
  unfold get
  simp only [hroute, hkey', hdbs, update_self, encode_ok hstored, ok_bind, hpay]
  cases route.isChunk <;> cases route.isObject <;> cases isEnvelope value <;>
    cases isLegacyEnvelope value <;> simp [decompressPayload, pure, Except.pure, throw]

def empty : ObjectStore := { shards := [], dbs := fun _ _ => none }

/-- A chunk is put, the node restarts without its policies, and the chunk is read. -/
theorem chunk_returned_after_restart : ∃ s₁ s₂, empty.put "v:chk:1" [1, 2, 3] = .ok s₁ ∧
    Trace.run handle s₁ [.restart []] = some s₂ ∧ s₂.get "v:chk:1" = .ok (some [1, 2, 3]) := by
  have hok : (empty.put "v:chk:1" [1, 2, 3]).isOk = true := by decide +kernel
  cases hput : empty.put "v:chk:1" [1, 2, 3] with
  | error err =>
    rw [hput] at hok
    cases hok
  | ok s₁ =>
    have hrun : Trace.run handle s₁ [.restart []] = some { s₁ with compression := fun _ => none } := rfl
    refine ⟨s₁, _, rfl, hrun, (get_of_put hput hrun).mpr ?_⟩
    rintro ⟨-, h⟩
    revert h
    decide

/-- A chunk of data that begins like an envelope cannot be read back. -/
theorem chunk_like_envelope_not_returned : ∃ s₁,
    empty.put "v:chk:1" (0x4e :: 0x43 :: List.replicate 14 0) = .ok s₁ ∧
      s₁.get "v:chk:1" = .error (.decode "v:chk:1") :=
  ⟨_, rfl, by decide +kernel⟩

end ObjectStore

end Namrbd.Node
