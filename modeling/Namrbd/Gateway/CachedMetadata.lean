import Mathlib.Logic.Function.Basic
import Namrbd.Lib.Trace

/-!
# The metadata cache of a gateway

Volume specs and allocation pages are read through a cache in front of the metadata
repository. An entry is used until its lifetime is over, and the page used least
recently goes first. A call goes to the repository in one step and to the cache in
another. A spec has no revision field; its versions are counted here as those of a
page.
-/

namespace Namrbd.Gateway

inductive CacheKey where
  | volume (volumeID : Nat)
  | page (volumeID pageNo : Nat)
  deriving DecidableEq

def CacheKey.volumeID : CacheKey → Nat
  | .volume volumeID => volumeID
  | .page volumeID _ => volumeID

def CacheKey.isPage : CacheKey → Bool
  | .volume _ => false
  | .page _ _ => true

structure Versioned (ρ : Type) where
  revision : Nat
  contents : ρ

/-- A cached record and when it expires. -/
structure CacheEntry (ρ : Type) where
  key : CacheKey
  record : Versioned ρ
  expiresAt : Int

def defaultExtentPageCacheEntries : Nat := 4096

/-- The repository behind the cache, the entries of the cache, those used last first, and the
time. -/
structure CachedMetadata (ρ : Type) where
  next : CacheKey → Versioned ρ
  entries : List (CacheEntry ρ)
  now : Int

namespace CachedMetadata

variable {ρ : Type} (ttl : Int)

/-- Pages beyond the bound are dropped, those used least recently first. -/
def trim (entries : List (CacheEntry ρ)) : List (CacheEntry ρ) :=
  entries.filter (!·.key.isPage) ++
    (entries.filter (·.key.isPage)).take defaultExtentPageCacheEntries

/-- `load` and `loadExtentPage`. -/
def load (s : CachedMetadata ρ) (key : CacheKey) : Option (Versioned ρ) × CachedMetadata ρ :=
  let others := s.entries.filter (·.key ≠ key)
  match s.entries.find? (·.key = key) with
  | none => (none, s)
  | some entry =>
    if entry.expiresAt < s.now then
      (none, { s with entries := if key.isPage then others else s.entries })
    else (some entry.record, { s with entries := entry :: others })

/-- `store` and `storeExtentPage`. -/
def store (s : CachedMetadata ρ) (key : CacheKey) (record : Versioned ρ) : CachedMetadata ρ :=
  { s with
    entries := trim (⟨key, record, s.now + ttl⟩ :: s.entries.filter (·.key ≠ key)) }

def invalidate (s : CachedMetadata ρ) (volumeID : Nat) : CachedMetadata ρ :=
  { s with entries := s.entries.filter (·.key.volumeID ≠ volumeID) }

def write (s : CachedMetadata ρ) (key : CacheKey) (record : Versioned ρ) : CachedMetadata ρ :=
  { s with next := Function.update s.next key record }

end CachedMetadata

/-- The calls of the cached metadata. -/
inductive CacheCall (ρ : Type) where
  /-- `GetVolume` and `GetExtentPage`. -/
  | get (key : CacheKey)
  /-- `ListExtentPages`, with the pages that are there. -/
  | listExtentPages (keys : List CacheKey)
  | putExtentPage (volumeID pageNo expectedRevision : Nat) (contents : ρ)
  /-- `UpdateVolume` and `SetVolumeState`. -/
  | updateVolume (volumeID : Nat) (update : ρ → ρ)
  /-- `Attach`, `Detach`, `PutVolumeStatus` and the other calls that only invalidate. -/
  | invalidate (volumeID : Nat)

/-- What a call returns: the record that was read or written, or the revision that was stored
when an expected one did not match. -/
inductive CacheAnswer (ρ : Type) where
  | record (record : Versioned ρ)
  | conflict (stored : Nat)
  | done

/-- What a call does next. -/
inductive CachePhase (ρ : Type) where
  | begin
  | fetch (key : CacheKey)
  | store (records : List (CacheKey × Versioned ρ)) (answer : CacheAnswer ρ)
  | returned (answer : CacheAnswer ρ)

/-- The calls on one cached repository. -/
structure CacheSystem (ι ρ : Type) where
  metadata : CachedMetadata ρ
  phase : ι → CachePhase ρ

namespace CacheSystem

variable {ι ρ : Type} [DecidableEq ι] (ttl : Int) (calls : ι → CacheCall ρ) (s : CacheSystem ι ρ)

def start (next : CacheKey → Versioned ρ) : CacheSystem ι ρ :=
  ⟨⟨next, [], 0⟩, fun _ => .begin⟩

/-- The first step of a call: it looks into the cache, or goes to the repository. -/
def begin : CacheCall ρ → CachePhase ρ × CachedMetadata ρ
  | .get key =>
    match s.metadata.load key with
    | (some record, metadata) => (.returned (.record record), metadata)
    | (none, metadata) => (.fetch key, metadata)
  | .listExtentPages keys =>
    (.store (keys.map fun key => (key, s.metadata.next key)) .done, s.metadata)
  | .putExtentPage volumeID pageNo expectedRevision contents =>
    let key := .page volumeID pageNo
    let stored := s.metadata.next key
    if stored.revision = expectedRevision then
      let record := ⟨stored.revision + 1, contents⟩
      (.store [(key, record)] (.record record), s.metadata.write key record)
    else (.returned (.conflict stored.revision), s.metadata)
  | .updateVolume volumeID update =>
    let stored := s.metadata.next (.volume volumeID)
    let record := ⟨stored.revision + 1, update stored.contents⟩
    (.store [(.volume volumeID, record)] (.record record),
      s.metadata.write (.volume volumeID) record)
  | .invalidate volumeID => (.returned .done, s.metadata.invalidate volumeID)

/-- The next step of a call. -/
def advance (call : CacheCall ρ) : CachePhase ρ → Option (CachePhase ρ × CachedMetadata ρ)
  | .begin => some (s.begin call)
  | .fetch key =>
    let record := s.metadata.next key
    some (.store [(key, record)] (.record record), s.metadata)
  | .store [] answer => some (.returned answer, s.metadata)
  | .store ((key, record) :: records) answer =>
    some (.store records answer, s.metadata.store ttl key record)
  | .returned _ => none

/-- A call goes on, or time passes. A call that the repository answers with an error goes no
further. -/
def step : ι ⊕ Nat → Option (CacheSystem ι ρ)
  | .inl i => (s.advance ttl (calls i) (s.phase i)).map fun (phase, metadata) =>
    ⟨metadata, Function.update s.phase i phase⟩
  | .inr duration =>
    some { s with metadata := { s.metadata with now := s.metadata.now + duration } }

end CacheSystem

end Namrbd.Gateway
