import Namrbd.Gateway.ProtectedVolumes

/-!
# Range checks

The gateway and the physical chunk calls compare a sum of two 64-bit values with the
size, the iSCSI adapter subtracts first. So only the adapter is exact for every request:
a sum that wraps around is small, and the request is taken.
-/

namespace Namrbd.RangeChecks

open Gateway

/-- What the adapter answers to a request it does not take. -/
inductive Err where
  | eof
  | illegalRequest (message : String)
  deriving DecidableEq

/-- The checks of the adapter. Blocks are of 512 bytes by default. -/
def validateAdapterRange (capacity blocks : String) (size blockSize offset length : Nat) :
    Except Err Unit :=
  if length = 0 then .error .eof
  else if size < offset ∨ size - offset < length then
    .error (.illegalRequest s!"iSCSI range outside {capacity} LUN capacity")
  else
    let blockSize := orDefault 512 blockSize
    if offset % blockSize ≠ 0 ∨ length % blockSize ≠ 0 then
      .error (.illegalRequest s!"iSCSI range is not aligned to {blocks} block size {blockSize}")
    else .ok ()

def validateSBSAdapterLogicalRange : (advertisedSize logicalBlockSize offset length : Nat) →
    Except Err Unit :=
  validateAdapterRange "advertised" "logical"

def validateSBSAdapterBackendRange : (sizeBytes blockSize offset length : Nat) →
    Except Err Unit :=
  validateAdapterRange "backend" "SBS backend"

/-- The checks that a physical chunk read and write make first. -/
def validatePhysicalChunkRange (chunkSize physicalChunkID chunkOffsetBytes lengthBytes : Nat) :
    Except ServiceErr Unit :=
  if physicalChunkID = 0 ∨ chunkSize ≤ chunkOffsetBytes ∨
      chunkSize < (chunkOffsetBytes + lengthBytes) % 2 ^ 64 then .error .outOfRange
  else if lengthBytes = 0 then .error .badAlignment
  else .ok ()

/-- What `ReadAt` copies of one chunk: from where in the chunk, to where in the answer, and
how many bytes. -/
def copyWindow (chunkSize offset length logicalChunk : Nat) : Nat × Nat × Nat :=
  let chunkStartOffset := logicalChunk * chunkSize % 2 ^ 64
  let copyStart := max offset chunkStartOffset
  let copyEnd := min ((offset + length) % 2 ^ 64) ((chunkStartOffset + chunkSize) % 2 ^ 64)
  (copyStart - chunkStartOffset, copyStart - offset, (copyEnd + 2 ^ 64 - copyStart) % 2 ^ 64)

/-- The copy of one chunk stays inside the chunk and inside the answer. -/
def CopiesInside (chunkSize offset length logicalChunk : Nat) : Prop :=
  let (chunkOffset, outStart, count) := copyWindow chunkSize offset length logicalChunk
  chunkOffset + count ≤ chunkSize ∧ outStart + count ≤ length

/-- A non-empty, aligned request whose bytes are all there, in the arithmetic of the naturals. -/
def Inside (blockSize size offset length : Nat) : Prop :=
  0 < length ∧ offset % blockSize = 0 ∧ length % blockSize = 0 ∧ offset + length ≤ size

/-- A non-empty, aligned request that starts inside and whose end is no 64-bit value. -/
def Wraps (blockSize size offset length : Nat) : Prop :=
  0 < length ∧ offset % blockSize = 0 ∧ length % blockSize = 0 ∧ offset < size ∧
    2 ^ 64 ≤ offset + length

variable {offset length : Nat}

theorem validateAdapterRange_eq_ok {capacity blocks : String} {size blockSize : Nat} :
    validateAdapterRange capacity blocks size blockSize offset length = .ok () ↔
      Inside (orDefault 512 blockSize) size offset length := by
  unfold validateAdapterRange Inside
  dsimp only
  split_ifs <;> simp <;> omega

/-- A check that adds first takes the requests inside, and those whose sum comes around. -/
theorem validateRange_eq_ok {volume : ServiceVolume} (hoffset : offset < 2 ^ 64)
    (hlength : length < 2 ^ 64) (hsize : volume.sizeBytes < 2 ^ 64) :
    validateRange volume offset length = .ok () ↔
      Inside (orDefault defaultBlockSize volume.blockSize) volume.sizeBytes offset length ∨
        Wraps (orDefault defaultBlockSize volume.blockSize) volume.sizeBytes offset length := by
  unfold validateRange Inside Wraps
  dsimp only
  split_ifs <;> simp [pure, Except.pure] <;> omega

theorem validatePhysicalChunkRange_eq_ok {chunkSize id : Nat} (hoffset : offset < 2 ^ 64)
    (hlength : length < 2 ^ 64) (hsize : chunkSize < 2 ^ 64) :
    validatePhysicalChunkRange chunkSize id offset length = .ok () ↔
      id ≠ 0 ∧ (Inside 1 chunkSize offset length ∨ Wraps 1 chunkSize offset length) := by
  unfold validatePhysicalChunkRange Inside Wraps
  split_ifs <;> simp <;> omega

theorem not_inside_of_wraps {blockSize size : Nat} (hsize : size < 2 ^ 64)
    (h : Wraps blockSize size offset length) : ¬ Inside blockSize size offset length := by
  unfold Wraps Inside at *
  omega

theorem copiesInside_iff {chunkSize size chunk : Nat} (hchunk : chunkSize < 2 ^ 64)
    (hsize : size < 2 ^ 64) (hpos : 0 < chunkSize) (hlen : 0 < length)
    (hend : offset + length ≤ size) (hfirst : offset / chunkSize ≤ chunk)
    (hlast : chunk ≤ (offset + length - 1) / chunkSize) :
    CopiesInside chunkSize offset length chunk ↔ chunk * chunkSize + chunkSize < 2 ^ 64 := by
  have hle := (Nat.le_div_iff_mul_le hpos).mp hlast
  have hlt : offset < chunk * chunkSize + chunkSize := by
    rw [← Nat.succ_mul]
    exact (Nat.div_lt_iff_lt_mul hpos).mp (Nat.lt_succ_of_le hfirst)
  unfold CopiesInside copyWindow
  dsimp only
  omega

/-- Of 64-bit offsets, lengths and sizes, the checks of the adapter accept exactly the requests
inside. Those of the gateway and of the chunk calls do so exactly for the requests that do not
wrap around, and `ReadAt` copies inside its buffers exactly when its last chunk ends below
`2 ^ 64`. -/
theorem accepted_iff_inside {offset length : Nat} (hoffset : offset < 2 ^ 64)
    (hlength : length < 2 ^ 64) :
    (∀ size blockSize, (validateSBSAdapterLogicalRange size blockSize offset length = .ok () ↔
        Inside (orDefault 512 blockSize) size offset length) ∧
      (validateSBSAdapterBackendRange size blockSize offset length = .ok () ↔
        Inside (orDefault 512 blockSize) size offset length)) ∧
    (∀ volume, volume.sizeBytes < 2 ^ 64 →
      let blockSize := orDefault defaultBlockSize volume.blockSize
      ((validateRange volume offset length = .ok () ↔
        Inside blockSize volume.sizeBytes offset length) ↔
          ¬ Wraps blockSize volume.sizeBytes offset length)) ∧
    (∀ chunkSize id, chunkSize < 2 ^ 64 →
      ((validatePhysicalChunkRange chunkSize id offset length = .ok () ↔
        id ≠ 0 ∧ Inside 1 chunkSize offset length) ↔
          ¬ (id ≠ 0 ∧ Wraps 1 chunkSize offset length))) ∧
    ∀ blockSize size chunkSize, Inside blockSize size offset length → size < 2 ^ 64 →
      0 < chunkSize → chunkSize < 2 ^ 64 →
      ((∀ chunk, offset / chunkSize ≤ chunk → chunk ≤ (offset + length - 1) / chunkSize →
        CopiesInside chunkSize offset length chunk) ↔
          ((offset + length - 1) / chunkSize + 1) * chunkSize < 2 ^ 64) := by
  refine ⟨fun size blockSize => ⟨validateAdapterRange_eq_ok, validateAdapterRange_eq_ok⟩, ?_, ?_, ?_⟩
  · intro volume hsize
    dsimp only
    rw [validateRange_eq_ok hoffset hlength hsize]
    have hnot := @not_inside_of_wraps offset length
      (orDefault defaultBlockSize volume.blockSize) _ hsize
    tauto
  · intro chunkSize id hsize
    rw [validatePhysicalChunkRange_eq_ok hoffset hlength hsize]
    have hnot := @not_inside_of_wraps offset length 1 _ hsize
    tauto
  · rintro blockSize size chunkSize ⟨hlen, -, -, hend⟩ hsize hpos hchunk
    rw [Nat.succ_mul]
    constructor
    · intro hcopies
      have hlast := Nat.div_le_div_right (c := chunkSize) (Nat.le_sub_one_of_lt
        (Nat.lt_add_of_pos_right (n := offset) hlen))
      exact (copiesInside_iff hchunk hsize hpos hlen hend hlast (Nat.le_refl _)).mp
        (hcopies _ hlast (Nat.le_refl _))
    · intro hbelow chunk hfirst hlast
      have hle := Nat.mul_le_mul_right chunkSize hlast
      exact (copiesInside_iff hchunk hsize hpos hlen hend hfirst hlast).mpr (by omega)

/-- The second block of a volume of two, which `ReadAt` copies from the second chunk. -/
theorem inside_accepted : validateRange ⟨4096, 8192, none⟩ 4096 4096 = .ok () ∧
    CopiesInside 4096 4096 4096 1 := by
  have h := @accepted_iff_inside 4096 4096 (by decide) (by decide)
  have hinside : Inside 4096 8192 4096 4096 := by unfold Inside; decide
  refine ⟨((h.2.1 ⟨4096, 8192, none⟩ (by decide)).mpr ?_).mpr hinside, ?_⟩
  · unfold Wraps
    decide
  · exact (h.2.2.2 4096 8192 4096 hinside (by decide) (by decide) (by decide)).mpr (by decide) 1
      (by decide) (by decide)

/-- The end of the request wraps around to zero. -/
theorem wrapped_request_accepted :
    validateRange ⟨4096, 8192, none⟩ 4096 (2 ^ 64 - 4096) = .ok () ∧
      ¬ Inside 4096 8192 4096 (2 ^ 64 - 4096) ∧
      validatePhysicalChunkRange 4096 1 1 (2 ^ 64 - 1) = .ok () ∧
      ¬ Inside 1 4096 1 (2 ^ 64 - 1) := by
  unfold Inside
  decide

end Namrbd.RangeChecks
