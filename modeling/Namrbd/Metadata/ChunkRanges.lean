import Mathlib.Data.List.Sort
import Namrbd.Metadata.Types

/-!
# Ranges of chunks inside pages

A write tells the repository which chunks of which pages it touched as a list
of ranges. Both sides sort the ranges and merge the ones that overlap or abut;
`covers_mergeRanges` says that this keeps the set of touched chunks.
-/

namespace Namrbd

open List

variable (ranges : List AllocationPageChunkRangeRecord)

/-- The chunk `i` of the page is in one of the ranges. -/
def Covers (pageNo i : Nat) : Prop :=
  ∃ r ∈ ranges, r.pageNo = pageNo ∧ r.startChunk ≤ i ∧ i < r.endChunk

/-- The order ranges are sorted in: by page, then start, then end. -/
def rangeLE (a b : AllocationPageChunkRangeRecord) : Prop :=
  a.pageNo < b.pageNo ∨ (a.pageNo = b.pageNo ∧
    (a.startChunk < b.startChunk ∨ (a.startChunk = b.startChunk ∧ a.endChunk ≤ b.endChunk)))

instance (a b : AllocationPageChunkRangeRecord) : Decidable (rangeLE a b) :=
  inferInstanceAs (Decidable (_ ∨ (_ ∧ (_ ∨ (_ ∧ _)))))

/-- Joins sorted ranges that overlap or touch. -/
def mergeRangesFrom (last : AllocationPageChunkRangeRecord) :
    List AllocationPageChunkRangeRecord → List AllocationPageChunkRangeRecord
  | [] => [last]
  | r :: rs =>
    if r.pageNo ≠ last.pageNo ∨ last.endChunk < r.startChunk then
      last :: mergeRangesFrom r rs
    else if last.endChunk < r.endChunk then
      mergeRangesFrom { last with endChunk := r.endChunk } rs
    else
      mergeRangesFrom last rs

def mergeRanges : List AllocationPageChunkRangeRecord :=
  match ranges.insertionSort rangeLE with
  | [] => []
  | r :: rs => mergeRangesFrom r rs

def mergeAllocationCommitPageChunkRanges : List AllocationPageChunkRangeRecord :=
  mergeRanges ranges

/-- The ranges are those of one page, which the source does not repeat in them. -/
def normalizeAllocationPageChunkRanges : List AllocationPageChunkRangeRecord :=
  mergeRanges ranges

variable {rs : List AllocationPageChunkRangeRecord} {pageNo i : Nat}

theorem covers_cons {r : AllocationPageChunkRangeRecord} :
    Covers (r :: rs) pageNo i ↔
      (r.pageNo = pageNo ∧ r.startChunk ≤ i ∧ i < r.endChunk) ∨ Covers rs pageNo i := by
  simp [Covers]

@[simp] theorem not_covers_nil (pageNo i : Nat) : ¬ Covers [] pageNo i := by
  simp [Covers]

/-- Ranges of one page come in the order of their starts. -/
def StartsOrdered : Prop :=
  ranges.Pairwise fun a b => a.pageNo = b.pageNo → a.startChunk ≤ b.startChunk

theorem covers_mergeRangesFrom :
    ∀ {last : AllocationPageChunkRangeRecord}, StartsOrdered (last :: rs) →
      (Covers (mergeRangesFrom last rs) pageNo i ↔ Covers (last :: rs) pageNo i) := by
  induction rs with
  | nil => intro last _; rfl
  | cons r rs ih =>
    intro last hord
    obtain ⟨hlast, hrest⟩ := pairwise_cons.mp hord
    have hr := hlast r mem_cons_self
    unfold mergeRangesFrom
    split
    · rw [covers_cons, ih hrest, covers_cons (r := last)]
    next hmerge =>
    have hpage : r.pageNo = last.pageNo := by
      by_contra hne
      exact hmerge (.inl hne)
    have hstart := hr hpage.symm
    have hlast' : ∀ x ∈ rs, last.pageNo = x.pageNo → last.startChunk ≤ x.startChunk :=
      fun x hx => hlast x (mem_cons_of_mem _ hx)
    have hrs : StartsOrdered rs := (pairwise_cons.mp hrest).2
    split
    · have hord' : StartsOrdered ({ last with endChunk := r.endChunk } :: rs) :=
        pairwise_cons.mpr ⟨hlast', hrs⟩
      rw [ih hord', covers_cons, covers_cons, covers_cons, ← or_assoc]
      refine or_congr_left ?_
      simp only at hmerge ⊢
      omega
    · rw [ih (pairwise_cons.mpr ⟨hlast', hrs⟩), covers_cons, covers_cons, covers_cons, ← or_assoc]
      refine or_congr_left ?_
      omega

instance : Std.Total rangeLE where
  total a b := by
    unfold rangeLE
    omega

instance : IsTrans AllocationPageChunkRangeRecord rangeLE where
  trans a b c hab hbc := by
    unfold rangeLE at *
    omega

theorem covers_perm {rs' : List AllocationPageChunkRangeRecord} (h : rs.Perm rs') :
    Covers rs pageNo i ↔ Covers rs' pageNo i := by
  simp only [Covers, h.mem_iff]

theorem covers_mergeRanges (pageNo i : Nat) :
    Covers (mergeRanges ranges) pageNo i ↔ Covers ranges pageNo i := by
  have hsort : StartsOrdered (ranges.insertionSort rangeLE) := by
    refine (pairwise_insertionSort rangeLE ranges).imp ?_
    intro a b hab hpage
    unfold rangeLE at hab
    omega
  rw [← covers_perm (perm_insertionSort rangeLE ranges)]
  unfold mergeRanges
  cases hrs : ranges.insertionSort rangeLE with
  | nil => rfl
  | cons r rs => exact covers_mergeRangesFrom (hrs ▸ hsort)

variable {P : AllocationPageChunkRangeRecord → Prop} {ranges : List AllocationPageChunkRangeRecord}

section

variable
  (hP : ∀ last r, P last → P r → last.endChunk < r.endChunk → P { last with endChunk := r.endChunk })

include hP

/-- What holds of all ranges, and is kept when a range is extended by another, holds of
the merged ranges. -/
theorem forall_mergeRangesFrom :
    ∀ {last : AllocationPageChunkRangeRecord}, (∀ r ∈ last :: rs, P r) →
      ∀ r ∈ mergeRangesFrom last rs, P r := by
  induction rs with
  | nil => exact fun h => h
  | cons r rs ih =>
    intro last h
    obtain ⟨hlast, hrest⟩ := forall_mem_cons.mp h
    obtain ⟨hr, hrs⟩ := forall_mem_cons.mp hrest
    unfold mergeRangesFrom
    split
    · exact forall_mem_cons.mpr ⟨hlast, ih hrest⟩
    · split
      · next hlt => exact ih (forall_mem_cons.mpr ⟨hP last r hlast hr hlt, hrs⟩)
      · exact ih (forall_mem_cons.mpr ⟨hlast, hrs⟩)

theorem forall_mergeRanges (h : ∀ r ∈ ranges, P r) : ∀ r ∈ mergeRanges ranges, P r := by
  have hsort : ∀ r ∈ ranges.insertionSort rangeLE, P r :=
    fun r hr => h r ((perm_insertionSort rangeLE ranges).mem_iff.mp hr)
  unfold mergeRanges
  cases hrs : ranges.insertionSort rangeLE with
  | nil => exact fun r hr => by cases hr
  | cons r rs => exact forall_mergeRangesFrom hP (hrs ▸ hsort)

end

/-- Ranges are not empty and end at `stop` at the latest. -/
def RangesWithin (stop : Nat) (ranges : List AllocationPageChunkRangeRecord) : Prop :=
  ∀ r ∈ ranges, r.startChunk < r.endChunk ∧ r.endChunk ≤ stop

/-! ## The merged ranges -/

/-- The first range ends before the second starts, with a chunk between them. -/
def EndsBefore (a b : AllocationPageChunkRangeRecord) : Prop :=
  a.pageNo < b.pageNo ∨
    a.pageNo = b.pageNo ∧ a.startChunk ≤ b.startChunk ∧ a.endChunk < b.startChunk

/-- The order of the starts, which extending a range keeps. -/
def StartLE (a b : AllocationPageChunkRangeRecord) : Prop :=
  a.pageNo < b.pageNo ∨ a.pageNo = b.pageNo ∧ a.startChunk ≤ b.startChunk

theorem endsBefore_mergeRangesFrom {last : AllocationPageChunkRangeRecord}
    (hord : (last :: rs).Pairwise StartLE) : (mergeRangesFrom last rs).Pairwise EndsBefore := by
  induction rs generalizing last with
  | nil => exact pairwise_singleton _ _
  | cons r rs ih =>
    obtain ⟨hlast, hrest⟩ := pairwise_cons.mp hord
    obtain ⟨hr, hrs⟩ := pairwise_cons.mp hrest
    obtain ⟨hfirst, hlater⟩ := forall_mem_cons.mp hlast
    unfold mergeRangesFrom
    split
    · next hpush =>
      -- every later range starts where `r` does or after it
      have hstart : ∀ x ∈ mergeRangesFrom r rs, StartLE r x :=
        forall_mergeRangesFrom (fun _ _ h _ _ => h)
          (forall_mem_cons.mpr ⟨.inr ⟨rfl, le_rfl⟩, hr⟩)
      refine pairwise_cons.mpr ⟨fun x hx => ?_, ih hrest⟩
      have hx := hstart x hx
      unfold StartLE at hfirst hx
      unfold EndsBefore
      omega
    · split
      · exact ih (pairwise_cons.mpr ⟨hlater, hrs⟩)
      · exact ih (pairwise_cons.mpr ⟨hlater, hrs⟩)

instance : Std.Antisymm rangeLE where
  antisymm a b hab hba := by
    unfold rangeLE at hab hba
    obtain ⟨_, _, _⟩ := a
    obtain ⟨_, _, _⟩ := b
    simp only [AllocationPageChunkRangeRecord.mk.injEq] at hab hba ⊢
    omega

/-- Merging keeps the chunks, leaves a gap between any two ranges, and does not depend on the
order of the ranges. -/
def Merges (merge : List AllocationPageChunkRangeRecord → List AllocationPageChunkRangeRecord) :
    Prop :=
  ∀ ranges, (∀ pageNo i, Covers (merge ranges) pageNo i ↔ Covers ranges pageNo i) ∧
    (merge ranges).Pairwise EndsBefore ∧
    ∀ ranges', ranges.Perm ranges' → merge ranges' = merge ranges

/-- Both functions of the source that merge ranges of chunks do so, for every list of ranges. -/
theorem ranges_merged :
    Merges mergeAllocationCommitPageChunkRanges ∧ Merges normalizeAllocationPageChunkRanges := by
  suffices h : Merges mergeRanges from ⟨h, h⟩
  intro ranges
  have hsort := pairwise_insertionSort rangeLE ranges
  refine ⟨covers_mergeRanges ranges, ?_, ?_⟩
  · have hord : (ranges.insertionSort rangeLE).Pairwise StartLE := by
      refine hsort.imp fun {a b} hab => ?_
      unfold rangeLE at hab
      unfold StartLE
      omega
    unfold mergeRanges
    cases hrs : ranges.insertionSort rangeLE with
    | nil => exact .nil
    | cons r rs => exact endsBefore_mergeRangesFrom (hrs ▸ hord)
  · intro ranges' hperm
    have hperm' := (perm_insertionSort rangeLE ranges').trans
      (hperm.symm.trans (perm_insertionSort rangeLE ranges).symm)
    unfold mergeRanges
    rw [hperm'.eq_of_pairwise' (pairwise_insertionSort rangeLE ranges') hsort]

end Namrbd
