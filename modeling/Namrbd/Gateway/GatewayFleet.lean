import Mathlib.Data.Nat.Basic
import Namrbd.Lib.Table

/-!
# Listing and watching the gateway fleet

`ListGateways` reads the fleet page by page, passing on the cursor and the revision of
each page, and `WatchGatewayFleet` follows the fleet after a revision.

The revision of a page is the one of the store when the page is read, also where the
page itself is read at an earlier one. So from the third page on the pages are of later
revisions, and a watch starts after changes that no page has shown. A page has the
records of all keys, a watch skips those whose id contains a slash.
-/

namespace Namrbd.GatewayFleet

open List

variable {ι φ : Type} [LinearOrder ι]

/-- A stored gateway. The ids are ordered as their keys are. -/
structure GatewayRecord (ι φ : Type) where
  gatewayID : ι
  registryRevision : Nat
  fields : φ
  deriving DecidableEq

abbrev Fleet (ι φ : Type) : Type := List (GatewayRecord ι φ)

/-- What happens to the records of the gateways. -/
inductive Event (ι φ : Type) where
  | put (record : GatewayRecord ι φ)
  | delete (gatewayID : ι) (revision : Nat)

def Event.apply (fleet : Fleet ι φ) : Event ι φ → Fleet ι φ
  | .put record => Table.put (·.gatewayID) record fleet
  | .delete gatewayID _ => fleet.filter (·.gatewayID ≠ gatewayID)

/-- A write of the store. `other` is one outside the registry. -/
inductive Write (ι φ : Type) where
  | put (gatewayID : ι) (fields : φ)
  | delete (gatewayID : ι)
  | other

/-- What a write does to the fleet. -/
def decodeEvent : Write ι φ × Nat → Option (Event ι φ)
  | (.put gatewayID fields, registryRevision) => some (.put { gatewayID, registryRevision, fields })
  | (.delete gatewayID, revision) => some (.delete gatewayID revision)
  | (.other, _) => none

/-- The gateway that is written. -/
def Write.gatewayID? : Write ι φ → Option ι
  | .put gatewayID _ | .delete gatewayID => some gatewayID
  | .other => none

/-- The first revision of a store is 1 and each write takes the next one. -/
def revision (history : List (Write ι φ)) : Nat := history.length + 1

def fleet (history : List (Write ι φ)) : Fleet ι φ :=
  ((history.zipIdx 2).filterMap decodeEvent).foldl Event.apply []

structure ListOptions (ι : Type) where
  limit : Int := 0
  cursor : Option ι := none
  revision : Nat := 0

structure Page (ι φ : Type) where
  records : Fleet ι φ
  revision : Nat
  nextCursor : Option ι

inductive Err where
  | limitExceedsMaximum (limit : Nat)
  deriving DecidableEq

def after (cursor : Option ι) (fleet : Fleet ι φ) : Fleet ι φ :=
  fleet.filter fun record => cursor.all (· < record.gatewayID)

/-- One page of the listing, and the token of the next. -/
def listGatewayFleetPage (history : List (Write ι φ)) (opts : ListOptions ι) :
    Except Err (Page ι φ) :=
  let limit := if opts.limit ≤ 0 then 128 else opts.limit.toNat
  if 512 < limit then .error (.limitExceedsMaximum limit)
  else
    let readAt := if 0 < opts.revision then history.take (opts.revision - 1) else history
    let found := after opts.cursor (fleet readAt)
    let records := found.take limit
    .ok {
      records
      revision := revision history
      nextCursor := if limit < found.length then records.getLast?.map (·.gatewayID) else none }

/-- `ListGateways`, given what had been written at each of its reads. It is `none` while a
page is left to read. -/
def listGateways (opts : ListOptions ι) :
    List (List (Write ι φ)) → Except Err (Option (Fleet ι φ × Nat))
  | [] => .ok none
  | history :: reads => do
    let page ← listGatewayFleetPage history opts
    if page.nextCursor = none then
      return some (page.records, page.revision)
    let rest ← listGateways
      { opts with cursor := page.nextCursor, revision := page.revision } reads
    return rest.map fun (records, revision) => (page.records ++ records, revision)

/-- The events of a watch that starts after `history` and sees what is written `later`.
`gatewayIDFromFleetStatusKey` finds no id in a key whose id is empty or contains a slash. -/
def watchGatewayFleet (gatewayIDFromFleetStatusKey : ι → Bool) (history later : List (Write ι φ))
    (afterRevision : Nat) : List (Event ι φ) :=
  let seen := if 0 < afterRevision then afterRevision - 1 else history.length
  (((history ++ later).zipIdx 2).drop seen).filterMap fun write =>
    if write.1.gatewayID?.all gatewayIDFromFleetStatusKey then decodeEvent write else none

/-! ## A fleet that is not written while it is listed -/

variable {history : List (Write ι φ)}

theorem sorted_fleet (history : List (Write ι φ)) :
    Table.Sorted (·.gatewayID) (fleet history) := by
  refine foldlRecOn (motive := Table.Sorted _) _ _ Pairwise.nil fun records hsort event _ => ?_
  cases event with
  | put record => exact hsort.put record
  | delete gatewayID revision => exact hsort.filter _

theorem after_last {cursor : Option ι} {fleet page rest : Fleet ι φ} {last : GatewayRecord ι φ}
    (hsort : Table.Sorted (·.gatewayID) fleet) (hfound : after cursor fleet = page ++ last :: rest) :
    after (some last.gatewayID) fleet = rest := by
  -- what is after the last key is after the cursor
  have hafter : after (some last.gatewayID) fleet =
      (page ++ last :: rest).filter (last.gatewayID < ·.gatewayID) := by
    have hlast : last ∈ after cursor fleet := by simp [hfound]
    rw [← hfound, after, after, filter_filter]
    refine filter_congr fun record _ => ?_
    cases cursor with
    | none => simp
    | some cursor =>
      have hlt : cursor < last.gatewayID := by simpa using (mem_filter.mp hlast).2
      simpa using hlt.trans
  have hsorted : Table.Sorted (·.gatewayID) (page ++ last :: rest) := hfound ▸ hsort.filter _
  obtain ⟨-, hrest, hbefore⟩ := pairwise_append.mp hsorted
  rw [hafter, filter_append, filter_cons_of_neg (by simp), filter_eq_nil_iff.mpr, nil_append,
    filter_eq_self.mpr]
  · simpa using fun record => rel_of_pairwise_cons hrest
  · simpa using fun record hmem => (hbefore record hmem last mem_cons_self).le

/-- Other keys may be written: a read of the history up to a later revision has the same fleet. -/
theorem fleet_of_other {read : List (Write ι φ)} (hread : ∃ k, read = history ++ replicate k .other)
    {rev : Nat} (hrev : rev = 0 ∨ history.length < rev) :
    fleet (if 0 < rev then read.take (rev - 1) else read) = fleet history := by
  have hother : ∀ k, fleet (history ++ replicate k .other) = fleet history := by
    intro k
    induction k with
    | zero => rw [replicate_zero, append_nil]
    | succ k ih =>
      rw [replicate_succ', ← append_assoc, ← ih]
      simp only [fleet, zipIdx_append, filterMap_append, foldl_append]
      rfl
  obtain ⟨k, rfl⟩ := hread
  rcases hrev with rfl | hrev
  · exact hother k
  · rw [if_pos (Nat.zero_lt_of_lt hrev), take_append, take_of_length_le (Nat.le_sub_one_of_lt hrev),
      take_replicate]
    exact hother _

/-- Induction on the reads. Each one finds what is left of the fleet after the cursor. -/
theorem listGateways_eq {limit : Int} (hlimit : limit ≤ 512) {reads : List (List (Write ι φ))}
    (hreads : ∀ read ∈ reads, ∃ k, read = history ++ replicate k .other) {cursor : Option ι}
    {rev : Nat} (hrev : rev = 0 ∨ history.length < rev)
    (hlen : (after cursor (fleet history)).length < reads.length) :
    ∃ read ∈ reads, listGateways { limit, cursor, revision := rev } reads =
      .ok (some (after cursor (fleet history), revision read)) := by
  induction reads generalizing cursor rev with
  | nil => cases hlen
  | cons read reads ih =>
    obtain ⟨hread, hreads⟩ := forall_mem_cons.mp hreads
    rw [listGateways, listGatewayFleetPage]
    dsimp only
    rw [fleet_of_other hread hrev, if_neg (by split <;> omega)]
    generalize hcount : (if limit ≤ 0 then 128 else limit.toNat) = count
    have hpos : 0 < count := by split at hcount <;> omega
    rw [length_cons] at hlen
    by_cases hmore : count < (after cursor (fleet history)).length
    · obtain ⟨page, last, hpage⟩ :=
        (eq_nil_or_concat' ((after cursor (fleet history)).take count)).resolve_left
          (ne_nil_of_length_pos (by rw [length_take]; omega))
      have hfound : after cursor (fleet history) =
          page ++ last :: (after cursor (fleet history)).drop count := by
        rw [append_cons, ← hpage, take_append_drop]
      have hrest := after_last (sorted_fleet history) hfound
      have hlater : history.length < revision read := by
        obtain ⟨k, rfl⟩ := hread
        rw [revision, length_append]
        omega
      obtain ⟨read', hmem, hnext⟩ := @ih hreads (some last.gatewayID) _ (.inr hlater)
        (by rw [hrest, length_drop]; omega)
      refine ⟨read', mem_cons_of_mem _ hmem, ?_⟩
      simp [hmore, hpage, hnext, hrest, ← hfound, bind, Except.bind, pure, Except.pure]
    · refine ⟨read, mem_cons_self, ?_⟩
      rw [if_neg hmore, take_of_length_le (Nat.not_lt.mp hmore)]
      rfl

/-- When no gateway is written while the fleet is listed, the pages are the fleet of the revision
that is returned, and a watch after it gives every later write once and leads to every later
fleet, as long as the watch finds the ids that are written. -/
theorem list_then_watch (history later : List (Write ι φ)) {limit : Int} (hlimit : limit ≤ 512)
    {reads : List (List (Write ι φ))}
    (hreads : ∀ read ∈ reads, ∃ k, read = history ++ replicate k .other)
    (hlen : (fleet history).length < reads.length) {gatewayIDFromFleetStatusKey : ι → Bool}
    (hids : ∀ write ∈ later, write.gatewayID?.all gatewayIDFromFleetStatusKey) :
    ∃ read ∈ reads, listGateways { limit } reads = .ok (some (fleet read, revision read)) ∧
      watchGatewayFleet gatewayIDFromFleetStatusKey read later (revision read) =
        (later.zipIdx (revision read + 1)).filterMap decodeEvent ∧
      (watchGatewayFleet gatewayIDFromFleetStatusKey read later (revision read)).foldl Event.apply
        (fleet read) = fleet (read ++ later) := by
  have hall : after none (fleet history) = fleet history := filter_eq_self.mpr fun _ _ => rfl
  obtain ⟨read, hmem, hlist⟩ := listGateways_eq hlimit hreads (.inl rfl) (hall ▸ hlen)
  have hfleet : fleet read = fleet history := fleet_of_other (hreads read hmem) (.inl rfl)
  have hwatch : watchGatewayFleet gatewayIDFromFleetStatusKey read later (revision read) =
      (later.zipIdx (revision read + 1)).filterMap decodeEvent := by
    have hdrop : ((read ++ later).zipIdx 2).drop (revision read - 1) =
        later.zipIdx (revision read + 1) := by
      simp [revision, zipIdx_append, Nat.add_comm 2]
    have hpos : 0 < revision read := Nat.succ_pos _
    rw [watchGatewayFleet, if_pos hpos, hdrop]
    exact filterMap_congr fun write hwrite => if_pos (hids _ (fst_mem_of_mem_zipIdx hwrite))
  refine ⟨read, hmem, by rw [hlist, hall, hfleet], hwatch, ?_⟩
  rw [hwatch]
  simp [revision, fleet, zipIdx_append, Nat.add_comm 2]

def written : List (Write Nat Nat) := [.put 1 0, .put 2 0, .put 3 0]

/-- Another key is written after the first page, and a gateway after the list. -/
theorem list_then_watch_three :
    listGateways { limit := 1 } [written, written ++ [.other], written ++ [.other],
        written ++ [.other]] = .ok (some (fleet written, 5)) ∧
      ∃ read, (watchGatewayFleet (fun _ => true) read [.put 2 1] (revision read)).foldl Event.apply
        (fleet read) = fleet (read ++ [.put 2 1]) := by
  have hlimit : (1 : Int) ≤ 512 := by decide
  have hreads : ∀ read ∈ [written, written ++ [.other], written ++ [.other], written ++ [.other]],
      ∃ k, read = written ++ replicate k .other := by simpa using ⟨1, rfl⟩
  have hids : ∀ write ∈ [(.put 2 1 : Write Nat Nat)], write.gatewayID?.all fun _ => true := by
    decide
  obtain ⟨read, -, -, -, hwatch⟩ :=
    list_then_watch written [.put 2 1] hlimit hreads (by decide) hids
  exact ⟨by decide, read, hwatch⟩

/-- Two gateways change between the first page and the second: the pages are no fleet there
has been, and the watch after the last of them does not mend it. -/
theorem list_mixes_revisions :
    let now := written ++ [.put 1 1, .put 3 1]
    let listed := [⟨1, 2, 0⟩, ⟨2, 3, 0⟩, ⟨3, 6, 1⟩]
    listGateways { limit := 1 } [written, now, now] = .ok (some (listed, revision now)) ∧
      (∀ k ≤ now.length, fleet (now.take k) ≠ listed) ∧
      (watchGatewayFleet (fun _ => true) now [] (revision now)).foldl Event.apply listed ≠
        fleet now := by
  decide

end Namrbd.GatewayFleet
