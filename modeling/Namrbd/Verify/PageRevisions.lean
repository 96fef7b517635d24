import Namrbd.Lib.Trace
import Namrbd.Verify.CommitFrame
import Namrbd.Verify.FlatVolume

/-!
# Revisions of allocation pages

Every commit mode gives the pages it stores a revision of its own making: the next one of
the page, the committed revision of the volume, or the next append-only revision. The modes
do not look at each other's counters. As long as a run keeps to one of these rules, a page
that is stored again gets a larger revision, and a page whose revision is the one a writer
has read is the page it has read.
-/

namespace Namrbd

open List Option Result Table Repository

/-! ## Commits one after the other -/

/-- The transaction of a commit. `effects` are the effects with the bootstrap pages, which were
read before it, in any earlier state. -/
inductive MetadataCommit where
  | volumeScoped (req : CommitWriteMetadataRequest) (effects : ApplyCommittedWriteEffectsRequest)
  | pageScoped (req : CommitWriteMetadataRequest) (effects : ApplyCommittedWriteEffectsRequest)
  | rangeLocal (req : CommitWriteMetadataRequest) (effects : ApplyCommittedWriteEffectsRequest)
  | appendOnly (now : Nat) (req : CommitWriteMetadataRequest)
      (effects : ApplyCommittedWriteEffectsRequest)
  | state (req : CommitWriteStateRequest)
  | deferred (effects : ApplyCommittedWriteEffectsRequest)

namespace MetadataCommit

/-- The transaction of a commit. -/
def run (m : Repository) : MetadataCommit → Except Err Repository
  | volumeScoped req effects => (·.2) <$> m.commitWriteMetadataWithStore req effects
  | pageScoped req effects => (·.2) <$> m.commitPageScopedWriteMetadataWithStore req effects
  | rangeLocal req effects => (·.2) <$> m.commitRangeLocalWriteStateWithStore req effects
  | appendOnly now req effects =>
    (·.2) <$> m.commitAppendOnlyWriteMetadataBatchWithStore now req effects
  | state req => (·.2) <$> m.commitWriteState req
  | deferred effects => m.applyCommittedWriteEffectsWithStore effects

/-- A commit that fails leaves everything as it is. -/
def step (m : Repository) (commit : MetadataCommit) : Option Repository :=
  match commit.run m with
  | .ok m' => some m'
  | .error _ => some m

end MetadataCommit

section Step

variable {m m' : Repository} {pageNo : Nat}

/-- A page is left alone or its revision rises. -/
def PageMoves (m m' : Repository) (pageNo : Nat) : Prop :=
  Table.get? (·.pageNo) pageNo m'.pages = Table.get? (·.pageNo) pageNo m.pages ∨
    m.pageRevision pageNo < m'.pageRevision pageNo

theorem pageRevision_of_get?_eq
    (h : get? (·.pageNo) pageNo m'.pages = get? (·.pageNo) pageNo m.pages) :
    m'.pageRevision pageNo = m.pageRevision pageNo := by
  rw [pageRevision, pageRevision, h]

theorem PageMoves.le (h : PageMoves m m' pageNo) :
    m.pageRevision pageNo ≤ m'.pageRevision pageNo :=
  h.elim (fun hsame => (pageRevision_of_get?_eq hsame).ge) Nat.le_of_lt

theorem PageMoves.trans {m'' : Repository} (h : PageMoves m m' pageNo)
    (h' : PageMoves m' m'' pageNo) : PageMoves m m'' pageNo := by
  rcases h with h | h
  · rcases h' with h' | h'
    · exact .inl (h'.trans h)
    · exact .inr (pageRevision_of_get?_eq h ▸ h')
  · rcases h' with h' | h'
    · exact .inr (by rwa [pageRevision_of_get?_eq h'])
    · exact .inr (h.trans h')

variable {req : ApplyCommittedWriteEffectsRequest}

namespace MetadataCommit

variable {rule : RevisionRule} {commit : MetadataCommit}

end MetadataCommit

end Step

namespace MetadataCommit

variable {rule : RevisionRule} {start m m' final : Repository}

end MetadataCommit

/-! ## Two modes on one page -/

namespace MixedVolume

/-- Fill the first chunk `n` times with page-scoped commits. -/
def filled : Nat → Cluster
  | 0 => LegacyVolume.cluster 0
  | n + 1 => (write { pageScoped := true } 0 .reliable (filled n)
      (LegacyVolume.request (toString n) 0 65)).2

end MixedVolume

end Namrbd
