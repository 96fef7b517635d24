import Mathlib.Logic.Function.Basic
import Namrbd.Lib.Trace

/-!
# The filter of the path-plan watch

The watch of the gateway and volume records keeps for every status key the fields it saw
last, and a response that repeats them is no change. It reads a volume status by the
names of a gateway record, does not look at what follows a change in a response, and
keeps what it saw before a value it can not decode.
-/

namespace Namrbd.ChangeWatch

open Function

variable {σ : Type}

/-- The record that a `/status` key is of. -/
inductive Record where
  | gateway (gatewayID : String)
  | volume (volumeID : Nat)
  deriving DecidableEq

/-- The keys under the gateway and volume prefixes; `other` does not end in `/status`. -/
inductive Key where
  | status (record : Record)
  | other (name : String)
  deriving DecidableEq

/-- The part of a gateway record that the path plan depends on. -/
structure PathPlanRelevant where
  product : String := ""
  role : String := ""
  connectionState : String := ""
  readiness : String := ""
  drainState : String := ""
  failureDomain : String := ""
  capabilities : List String := []
  controlRaw : String := ""
  dataplaneRaw : String := ""
  deriving DecidableEq

/-- A stored value. Of a gateway record the watch reads `fields`. -/
inductive Value (σ : Type) where
  | gateway (gatewayID : String) (lastSeenUnix : Int) (fields : PathPlanRelevant)
  | volumeStatus (status : σ)
  | undecodable

/-- A value read by the names of a gateway record; a volume status has none of them. -/
def Value.decode : Value σ → Option PathPlanRelevant
  | .gateway _ _ fields => some fields
  | .volumeStatus _ => some {}
  | .undecodable => none

/-- What `ReconcileVolumePathPlanStatus` reads of a value. -/
def Value.reads : Value σ → Option ((String × String) ⊕ σ)
  | .gateway gatewayID _ fields => some (.inl (gatewayID, fields.connectionState))
  | .volumeStatus status => some (.inr status)
  | .undecodable => none

abbrev LastSeen : Type := Key → Option PathPlanRelevant

/-- Facts that are the last ones seen under the key are no change. -/
def observe (lastSeen : LastSeen) (key : Key) (next : PathPlanRelevant) : Bool × LastSeen :=
  (lastSeen key ≠ some next, update lastSeen key (some next))

def forget (lastSeen : LastSeen) (key : Key) : LastSeen := update lastSeen key none

/-- An event puts a value under a key or, with `none`, deletes the key. -/
abbrev Event (σ : Type) : Type := Key × Option (Value σ)

/-- Whether a response carries a change, and what is remembered after it. -/
def hasMeaningfulChange (lastSeen : LastSeen) : List (Event σ) → Bool × LastSeen
  | [] => (false, lastSeen)
  | (key, none) :: _ => (true, forget lastSeen key)
  | (.other _, some _) :: _ => (true, lastSeen)
  | (.status record, some value) :: events =>
    match value.decode with
    | none => (true, lastSeen)
    | some next =>
      let (changed, lastSeen) := observe lastSeen (.status record) next
      if changed then (true, lastSeen) else hasMeaningfulChange lastSeen events

/-- What the watch decodes and what the reconcile reads of the record of each key. -/
abbrev Store (σ : Type) : Type :=
  Key → Option (Option PathPlanRelevant × Option ((String × String) ⊕ σ))

def Value.facts (value : Value σ) : Option PathPlanRelevant × Option ((String × String) ⊕ σ) :=
  (value.decode, value.reads)

def Store.apply (store : Store σ) (events : List (Event σ)) : Store σ :=
  events.foldl (fun store event => update store event.1 (event.2.map Value.facts)) store

/-- The records that are stored, those that the responses have brought since the watch began,
and what the watch remembers of them. -/
structure Watch (σ : Type) where
  store : Store σ
  heard : Store σ := fun _ => none
  lastSeen : LastSeen := fun _ => none

/-- One event of the watch. -/
def step (w : Watch σ) (resp : List (Event σ)) : Option (Watch σ) :=
  some ⟨w.store.apply resp, w.heard.apply resp, (hasMeaningfulChange w.lastSeen resp).2⟩

/-! ## Histories without a missed change -/

section Condition

variable [DecidableEq σ] (heard : Store σ)

/-- The event puts what an earlier response has brought. -/
def Repeats : Event σ → Bool
  | (.status record, some value) =>
    value.decode.isSome && heard (.status record) = some value.facts
  | _ => false

/-- The event shows: it does not put what looks the same to the watch and not to the reconcile,
and it does not put a record after a value that did not decode. -/
def Shows : Event σ → Bool
  | (.status record, some value) =>
    value.decode.isNone || (heard (.status record)).all fun (fields, reads) =>
      fields.isSome && (fields ≠ value.decode || reads = value.reads)
  | _ => true

/-- Of a response only the last event is not a repetition. -/
def SeesAll (w : Watch σ) (resp : List (Event σ)) : Bool :=
  resp.dropLast.all (Repeats w.heard) && resp.getLast?.all (Shows w.heard)

end Condition

/-- What was heard of a key is stored, and the watch remembers its fields. -/
structure Tracks (w : Watch σ) : Prop where
  stored : ∀ key facts, w.heard key = some facts → w.store key = some facts
  seen : ∀ record fields reads, w.heard (.status record) = some (some fields, reads) →
    w.lastSeen (.status record) = some fields
  unseen : ∀ key, w.heard key = none → w.lastSeen key = none

/-- The records after one event. -/
def Watch.hear (w : Watch σ) (event : Event σ) (lastSeen : LastSeen) : Watch σ :=
  ⟨update w.store event.1 (event.2.map Value.facts),
    update w.heard event.1 (event.2.map Value.facts), lastSeen⟩

variable {w : Watch σ} {event : Event σ}

theorem Tracks.hear (h : Tracks w) {lastSeen : LastSeen}
    (hseen : ∀ value ∈ event.2, ∀ record fields, event.1 = .status record →
      value.decode = some fields → lastSeen event.1 = some fields)
    (hunseen : event.2 = none → lastSeen event.1 = none)
    (hother : ∀ other, other ≠ event.1 → lastSeen other = w.lastSeen other) :
    Tracks (w.hear event lastSeen) := by
  unfold Watch.hear
  constructor
  · intro key facts
    dsimp only
    by_cases hkey : key = event.1
    · rw [hkey, update_self, update_self]
      exact id
    · rw [update_of_ne hkey, update_of_ne hkey]
      exact h.stored key facts
  · intro record fields reads
    dsimp only
    by_cases hkey : .status record = event.1
    · rw [hkey, update_self]
      intro hfacts
      obtain ⟨value, hvalue, hfacts⟩ := Option.map_eq_some_iff.mp hfacts
      exact hseen value hvalue record fields hkey.symm (congrArg Prod.fst hfacts)
    · rw [update_of_ne hkey, hother _ hkey]
      exact h.seen record fields reads
  · intro key
    dsimp only
    by_cases hkey : key = event.1
    · rw [hkey, update_self, Option.map_eq_none_iff]
      exact hunseen
    · rw [update_of_ne hkey, hother key hkey]
      exact h.unseen key

variable [DecidableEq σ]

theorem repeats_iff : Repeats w.heard event ↔ ∃ record value,
    event = (.status record, some value) ∧ value.decode.isSome ∧
      w.heard (.status record) = some value.facts := by
  constructor
  · intro h
    unfold Repeats at h
    split at h
    · exact ⟨_, _, rfl, by simpa using h⟩
    · cases h
  · rintro ⟨record, value, rfl, h⟩
    simpa [Repeats] using h

/-- An event that shows is a change, which ends the response, or leaves what is read. It is no
change when it repeats what was heard. -/
theorem Tracks.of_shows (h : Tracks w) (hshows : Shows w.heard event) :
    ∃ lastSeen, Tracks (w.hear event lastSeen) ∧
      ((∀ events, hasMeaningfulChange w.lastSeen (event :: events) = (true, lastSeen)) ∧
          Repeats w.heard event = false ∨
        (∀ events, hasMeaningfulChange w.lastSeen (event :: events) =
          hasMeaningfulChange lastSeen events) ∧
        ∀ key, ((w.hear event lastSeen).store key).map (·.2) = (w.store key).map (·.2)) := by
  match event with
  | (key, none) =>
    exact ⟨forget w.lastSeen key, h.hear nofun (fun _ => update_self ..)
      (fun other hne => update_of_ne hne ..), .inl ⟨fun _ => rfl, by cases key <;> rfl⟩⟩
  | (.other name, some value) =>
    exact ⟨w.lastSeen, h.hear nofun nofun (fun _ _ => rfl), .inl ⟨fun _ => rfl, rfl⟩⟩
  | (.status record, some value) =>
    cases hdecode : value.decode with
    | none =>
      refine ⟨w.lastSeen, h.hear ?_ nofun (fun _ _ => rfl), .inl ⟨fun events => ?_, ?_⟩⟩
      · rintro _ ⟨⟩ _ fields - hfields
        cases hdecode.symm.trans hfields
      · rw [hasMeaningfulChange, hdecode]
      · rw [Repeats, hdecode]
        rfl
    | some fields =>
      refine ⟨update w.lastSeen (.status record) (some fields), h.hear ?_ nofun
        (fun other hne => update_of_ne hne ..), ?_⟩
      · rintro _ ⟨⟩ _ fields' - hfields
        cases hdecode.symm.trans hfields
        exact update_self ..
      by_cases hseen : w.lastSeen (.status record) = some fields
      · refine .inr ⟨fun events => ?_, fun key => ?_⟩
        · simp [hasMeaningfulChange, hdecode, observe, hseen]
        -- what the watch remembers was heard, and what was heard is stored
        obtain ⟨⟨old, reads⟩, hheard⟩ := Option.ne_none_iff_exists'.mp fun hnone =>
          nomatch (h.unseen _ hnone).symm.trans hseen
        have hstored := h.stored _ _ hheard
        simp only [Shows, hdecode, hheard, Option.isNone_some, Bool.false_or, Option.all_some,
          Bool.and_eq_true] at hshows
        obtain ⟨hsome, hsame⟩ := hshows
        obtain ⟨old, rfl⟩ := Option.isSome_iff_exists.mp hsome
        cases (h.seen record old reads hheard).symm.trans hseen
        have hreads : reads = value.reads := by simpa using hsame
        rw [Watch.hear]
        dsimp only
        rw [update_apply]
        split
        · next hkey =>
          rw [hkey, hstored, hreads]
          rfl
        · rfl
      · refine .inl ⟨fun events => ?_, ?_⟩
        · simp [hasMeaningfulChange, hdecode, observe, hseen]
        · refine Bool.eq_false_iff.mpr fun hrepeats => hseen ?_
          obtain ⟨_, _, heq, -, hheard⟩ := repeats_iff.mp hrepeats
          cases heq
          exact h.seen record fields value.reads (hheard.trans (by rw [Value.facts, hdecode]))

theorem shows_of_repeats (h : Repeats w.heard event) : Shows w.heard event := by
  obtain ⟨record, value, rfl, hdecode, hheard⟩ := repeats_iff.mp h
  simp [Shows, hdecode, hheard, Value.facts]

/-- A repetition leaves what was heard as it is. -/
theorem heard_of_repeats (h : Repeats w.heard event) (lastSeen : LastSeen) :
    (w.hear event lastSeen).heard = w.heard := by
  obtain ⟨record, value, rfl, -, hheard⟩ := repeats_iff.mp h
  exact (congrArg _ hheard.symm).trans (update_eq_self ..)

/-- Induction on the response. An event before the last one is a repetition and no change. -/
theorem Tracks.response {resp : List (Event σ)} (h : Tracks w) (hsees : SeesAll w resp) :
    Tracks ⟨w.store.apply resp, w.heard.apply resp, (hasMeaningfulChange w.lastSeen resp).2⟩ ∧
      ((hasMeaningfulChange w.lastSeen resp).1 = false → ∀ key,
        (w.store.apply resp key).map (·.2) = (w.store key).map (·.2)) := by
  rw [SeesAll, Bool.and_eq_true] at hsees
  induction resp generalizing w with
  | nil => exact ⟨h, fun _ _ => rfl⟩
  | cons event resp ih =>
    obtain ⟨hrepeats, hlast⟩ := hsees
    cases resp with
    | nil =>
      have hshows : Shows w.heard event := hlast
      obtain ⟨lastSeen, htracks, ⟨hchange, -⟩ | ⟨hsame, hreads⟩⟩ := h.of_shows hshows
      · rw [hchange]
        exact ⟨htracks, nofun⟩
      · rw [hsame]
        exact ⟨htracks, fun _ => hreads⟩
    | cons event' resp =>
      rw [List.dropLast_cons_cons, List.all_cons, Bool.and_eq_true] at hrepeats
      obtain ⟨lastSeen, htracks, ⟨-, hnot⟩ | ⟨hsame, hreads⟩⟩ :=
        h.of_shows (shows_of_repeats hrepeats.1)
      · cases hrepeats.1.symm.trans hnot
      rw [hsame]
      have hheard := heard_of_repeats hrepeats.1 lastSeen
      obtain ⟨htracks', hih⟩ := ih htracks (by rw [hheard]; exact ⟨hrepeats.2, hlast⟩)
      exact ⟨htracks', fun hfalse key => (hih hfalse key).trans (hreads key)⟩

/-- In a history that the watch sees whole, a response without a meaningful change leaves what
the reconcile reads. -/
theorem reads_of_hasMeaningfulChange_eq_false (store : Store σ) (history : List (List (Event σ)))
    (resp : List (Event σ)) (hsees : Trace.Guarded step (SeesAll · ·) { store } (history ++ [resp]))
    (hrun : Trace.run step { store } history = some w)
    (hfalse : (hasMeaningfulChange w.lastSeen resp).1 = false) (key : Key) :
    (w.store.apply resp key).map (·.2) = (w.store key).map (·.2) := by
  obtain ⟨hsees, hresp⟩ := Trace.guarded_append.mp hsees
  have htracks : Tracks w := by
    refine Trace.run_induction Tracks ?_ ⟨?_, ?_, fun _ _ => rfl⟩ hsees hrun
    · rintro w resp _ htracks hsees ⟨⟩
      exact (htracks.response hsees).1
    · exact fun _ _ h => nomatch h
    · exact fun _ _ _ h => nomatch h
  exact (htracks.response (hresp w hrun).1).2 hfalse key

def connects (gatewayID connectionState : String) (lastSeenUnix : Int) : Event Nat :=
  (.status (.gateway gatewayID), some (.gateway gatewayID lastSeenUnix { connectionState }))

def volumeStatus (status : Nat) : Event Nat := (.status (.volume 1), some (.volumeStatus status))

/-- A heartbeat of a gateway, and a volume status that is put again, after a gateway has come up
and the status has been put in one response each. -/
theorem reads_of_heartbeat : ∃ w,
    Trace.run step { store := fun _ => none } [[volumeStatus 7], [connects "a" "up" 1]] = some w ∧
      (hasMeaningfulChange w.lastSeen [volumeStatus 7, connects "a" "up" 2]).1 = false ∧
      (w.store.apply [volumeStatus 7, connects "a" "up" 2] (.status (.gateway "a"))).map (·.2) =
        (w.store (.status (.gateway "a"))).map (·.2) :=
  ⟨_, rfl, rfl, reads_of_hasMeaningfulChange_eq_false (fun _ => none)
    [[volumeStatus 7], [connects "a" "up" 1]] [volumeStatus 7, connects "a" "up" 2] (by decide) rfl
    rfl (.status (.gateway "a"))⟩

/-- A volume status is written anew. A gateway goes down behind the change of another one and
comes back. -/
theorem hasMeaningfulChange_misses :
    let misses := fun history (event : Event Nat) =>
      (Trace.run step { store := fun _ => none } history).any fun w =>
        !(hasMeaningfulChange w.lastSeen [event]).1 &&
          (w.store event.1).map (·.2) ≠ event.2.map Value.reads
    misses [[volumeStatus 7]] (volumeStatus 8) ∧
      misses [[connects "a" "up" 1], [connects "b" "up" 1, connects "a" "down" 2]]
        (connects "a" "up" 3) := by
  decide

end Namrbd.ChangeWatch
