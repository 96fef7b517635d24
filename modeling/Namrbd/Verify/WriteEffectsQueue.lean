import Namrbd.Lib.Trace
import Namrbd.Service.WriteEffectsQueue

/-!
# Requests of one page are applied in order

A lane is a list of requests in the order of arrival (`inLane`), however its worker
cuts it into batches. Requests that touch a common page are applied in order while
they are in one lane, and a request fails only by calls of its own while its lane holds
one kind of request and batches end before their deadline. The queue sees to none of
this; `Orderly` is the condition. Without it too no request is lost or answered twice
(`handled_once`).
-/

namespace Namrbd

open Function List

/-! ## Calls that end in time -/

/-- The call takes its time, and as long as it ends before the deadline of its batch an earlier
start does not change its result. -/
def Settles (call : Nat → Option ApplyErr × Nat) : Prop :=
  ∀ now, now ≤ (call now).2 ∧ ((call now).2 < serviceWriteEffectsTimeout →
    ∀ start ≤ now, (call start).1 = (call now).1 ∧ (call start).2 ≤ (call now).2)

theorem CallAnswer.settles (answer : CallAnswer) : Settles answer.at := by
  intro now
  unfold CallAnswer.at
  split
  · next hin =>
    refine ⟨Nat.le_add_right _ _, fun _ start hle => ?_⟩
    rw [if_pos (by omega)]
    exact ⟨rfl, Nat.add_le_add_right hle _⟩
  · exact ⟨Nat.le_max_left _ _, fun hlate => absurd hlate (by omega)⟩

theorem settles_retry (answer : Nat → CallAnswer) (left attempt : Nat) :
    Settles (retry answer left attempt) := by
  induction left generalizing attempt with
  | zero => exact (answer attempt).settles
  | succ left ih =>
    intro now
    obtain ⟨hle, hsame⟩ := (answer attempt).settles now
    simp only [retry]
    generalize (answer attempt).at now = first at hle hsame
    by_cases hconflict : first.1 ≠ some .casConflict
    · rw [if_pos hconflict]
      refine ⟨hle, fun hin start hstart => ?_⟩
      obtain ⟨herr, hend⟩ := hsame hin start hstart
      rw [herr, if_pos hconflict]
      exact ⟨rfl, hend⟩
    rw [if_neg hconflict]
    split
    · next hwait =>
      obtain ⟨hlater, hrest⟩ := ih (attempt + 1) (first.2 + attempt * 5)
      refine ⟨by omega, fun hin start hstart => ?_⟩
      obtain ⟨herr, hend⟩ := hsame (by omega) start hstart
      rw [herr, if_neg hconflict, if_pos (by omega)]
      exact hrest hin _ (by omega)
    · exact ⟨Nat.le_trans hle (Nat.le_max_left _ _), fun hin => absurd hin (by omega)⟩

theorem settles_applyItem (answers : BatchAnswers) (item : QueuedRequest) :
    Settles (applyItem answers item) := by
  unfold applyItem
  split
  · exact (answers.single item 1).settles
  · exact settles_retry _ _ _

theorem applyEach_spec (answers : BatchAnswers) (items : List QueuedRequest) (now : Nat) :
    (applyEach answers items now).1.map (·.1) = items ∧ now ≤ (applyEach answers items now).2 ∧
      ((applyEach answers items now).2 < serviceWriteEffectsTimeout →
        ∀ r ∈ (applyEach answers items now).1,
          r.2 = (applyItem answers r.1 0).1.map .apply) := by
  induction items generalizing now with
  | nil => exact ⟨rfl, Nat.le_refl _, fun _ _ hr => nomatch hr⟩
  | cons item items ih =>
    obtain ⟨hle, hsame⟩ := settles_applyItem answers item now
    obtain ⟨hitems, hrest, hown⟩ := ih (applyItem answers item now).2
    refine ⟨congrArg (item :: ·) hitems, Nat.le_trans hle hrest, fun hin => ?_⟩
    refine forall_mem_cons.mpr ⟨?_, hown hin⟩
    have hfirst := (hsame (Nat.lt_of_le_of_lt hrest hin) 0 (Nat.zero_le _)).1
    exact congrArg (Option.map QueueErr.apply) hfirst.symm

/-- A batch answers its requests in order. When they are of one kind and the batch ends in time,
a request fails as it would alone. -/
theorem applyItems_spec (cfg : WriteEffectsConfig) (answers : BatchAnswers)
    (items : List QueuedRequest) :
    (applyItems cfg answers items).1.map (·.1) = items ∧
      ((∀ a ∈ items, ∀ b ∈ items, a.commit = b.commit) →
        (applyItems cfg answers items).2 < serviceWriteEffectsTimeout →
        ∀ r ∈ (applyItems cfg answers items).1, ∀ err, r.2 = some err →
          ∃ cause, err = .apply cause ∧ (applyItem answers r.1 0).1 = some cause) := by
  have hmap : ∀ outcome : Option QueueErr,
      (items.map fun item => (item, outcome)).map (·.1) = items := fun _ => by simp [comp_def]
  have heach : ∀ now, (applyEach answers items now).1.map (·.1) = items ∧
      ((applyEach answers items now).2 < serviceWriteEffectsTimeout →
        ∀ r ∈ (applyEach answers items now).1, ∀ err, r.2 = some err →
          ∃ cause, err = .apply cause ∧ (applyItem answers r.1 0).1 = some cause) := by
    intro now
    obtain ⟨hitems, -, hown⟩ := applyEach_spec answers items now
    refine ⟨hitems, fun hin r hr err herr => ?_⟩
    obtain ⟨cause, hcause, hc⟩ := Option.map_eq_some_iff.mp ((hown hin r hr).symm.trans herr)
    exact ⟨cause, hc.symm, hcause⟩
  cases items with
  | nil => exact ⟨rfl, fun _ _ _ hr => nomatch hr⟩
  | cons first rest =>
    unfold applyItems
    dsimp only
    generalize (if first.commit = true then cfg.batchCommits else cfg.batchEffects) = supported
    split
    · next hmixed =>
      obtain ⟨item, hitem, hne⟩ := hmixed
      exact ⟨hmap _, fun hkinds => absurd (hkinds item hitem first mem_cons_self) hne⟩
    split
    · split
      · refine ⟨hmap _, fun _ _ r hr err herr => ?_⟩
        obtain ⟨item, -, rfl⟩ := mem_map.mp hr
        cases herr
      · exact ⟨(heach _).1, fun _ => (heach _).2⟩
    · exact ⟨(heach 0).1, fun _ => (heach 0).2⟩

/-! ## Order in the lanes -/

namespace WriteEffectsQueue

variable {cfg : WriteEffectsConfig} {q q' : WriteEffectsQueue} {lane : Lane}
  {own own' : QueuedRequest → QueueErr → Prop}

def inLane (q : WriteEffectsQueue) (lane : Lane) : List QueuedRequest :=
  (q.running lane).map (·.1) ++ q.batch lane ++ q.channel lane

/-- A request arrives when its channel has room, its lane holds requests of its kind only, and the
requests of its pages that wait are in its lane. The calls of a batch end before its deadline. -/
def Orderly (cfg : WriteEffectsConfig) (q : WriteEffectsQueue) : QueueEvent → Prop
  | .enqueue req commit =>
    (q.channel (req.serviceWriteEffectsLaneKey cfg)).length < serviceWriteEffectsQueueDepth ∧
      (∀ item ∈ q.inLane (req.serviceWriteEffectsLaneKey cfg), item.commit = commit) ∧
      ∀ lane, ∀ item ∈ q.inLane lane, item.req.Conflict req →
        lane = req.serviceWriteEffectsLaneKey cfg
  | .start lane answers =>
    (applyItems cfg answers (q.batch lane)).2 < serviceWriteEffectsTimeout
  | _ => True

/-- The error is that of the calls for this request alone, in a context of their own, as they are
answered for the batch that the request was in. -/
def FailsAlone (cfg : WriteEffectsConfig) (events : List QueueEvent) (item : QueuedRequest)
    (err : QueueErr) : Prop :=
  ∃ before lane answers after s cause, events = before ++ .start lane answers :: after ∧
    Trace.run (WriteEffectsQueue.step cfg) {} before = some s ∧ item ∈ s.batch lane ∧
    err = .apply cause ∧ (applyItem answers item 0).1 = some cause

/-- The invariant of orderly runs; requests fail by errors that are their `own`. -/
structure Ordered (own : QueuedRequest → QueueErr → Prop) (q : WriteEffectsQueue) : Prop where
  sending : ∀ lane, q.sending lane = []
  sorted : ∀ lane, (q.inLane lane).Pairwise (·.seq < ·.seq)
  kinds : ∀ lane, ∀ a ∈ q.inLane lane, ∀ b ∈ q.inLane lane, a.commit = b.commit
  lanes : ∀ lane lane', ∀ a ∈ q.inLane lane, ∀ b ∈ q.inLane lane', a.req.Conflict b.req →
    lane = lane'
  arrived : ∀ lane, ∀ a ∈ q.inLane lane, a.seq < q.nextSeq
  appliedArrived : ∀ a ∈ q.applied, a.seq < q.nextSeq
  ahead : ∀ a ∈ q.applied, ∀ lane, ∀ b ∈ q.inLane lane, a.req.Conflict b.req → a.seq < b.seq
  applied : q.applied.Pairwise fun a b => a.req.Conflict b.req → a.seq < b.seq
  running : ∀ lane, ∀ r ∈ q.running lane, ∀ err ∈ r.2, own r.1 err
  failed : ∀ f ∈ q.failed, own f.1 f.2

theorem ordered_empty : Ordered own {} := by
  constructor <;> simp [inLane]

theorem Ordered.mono (h : Ordered own q) (hown : ∀ item err, own item err → own' item err) :
    Ordered own' q :=
  { h with
    running := fun lane r hr err herr => hown _ _ (h.running lane r hr err herr)
    failed := fun f hf => hown _ _ (h.failed f hf) }

theorem Conflict.symm {req req' : WriteEffectsRequest} (h : req.Conflict req') :
    req'.Conflict req := by
  obtain ⟨page, hpage, hpage'⟩ := h
  exact ⟨page, hpage', hpage⟩

theorem Ordered.of_inLane (h : Ordered own q) (hlanes : q'.inLane = q.inLane)
    (hsending : q'.sending = q.sending) (hseq : q'.nextSeq = q.nextSeq)
    (happ : q'.applied = q.applied) (hfailed : q'.failed = q.failed)
    (hrun : ∀ lane, ∀ r ∈ q'.running lane, ∀ err ∈ r.2, own r.1 err) : Ordered own q' where
  sending := hsending ▸ h.sending
  sorted := hlanes ▸ h.sorted
  kinds := hlanes ▸ h.kinds
  lanes := hlanes ▸ h.lanes
  arrived := hlanes ▸ hseq ▸ h.arrived
  appliedArrived := happ ▸ hseq ▸ h.appliedArrived
  ahead := happ ▸ hlanes ▸ h.ahead
  applied := happ ▸ h.applied
  running := hrun
  failed := hfailed ▸ h.failed

theorem Ordered.receive (h : Ordered own q) (hstep : q.receive cfg lane = some q') :
    Ordered own q' := by
  unfold WriteEffectsQueue.receive at hstep
  split at hstep
  · cases hstep
  next item rest hchannel =>
  split at hstep
  · cases hstep
    refine h.of_inLane ?_ rfl rfl rfl rfl h.running
    funext lane'
    by_cases hl : lane' = lane
    · subst hl
      simp [inLane, hchannel]
    · simp [inLane, hl]
  · cases hstep

theorem Ordered.start (h : Ordered own q) {answers : BatchAnswers}
    (hintime : (applyItems cfg answers (q.batch lane)).2 < serviceWriteEffectsTimeout)
    (hown : ∀ item ∈ q.batch lane, ∀ cause, (applyItem answers item 0).1 = some cause →
      own item (.apply cause)) (hstep : q.start cfg lane answers = some q') : Ordered own q' := by
  unfold WriteEffectsQueue.start at hstep
  split at hstep
  · next hready =>
    obtain ⟨hitems, halone⟩ := applyItems_spec cfg answers (q.batch lane)
    have hkinds : ∀ a ∈ q.batch lane, ∀ b ∈ q.batch lane, a.commit = b.commit :=
      fun a ha b hb => h.kinds lane a (by simp [inLane, ha]) b (by simp [inLane, hb])
    cases hstep
    refine h.of_inLane ?_ rfl rfl rfl rfl fun lane' r hr err herr => ?_
    · funext lane'
      by_cases hl : lane' = lane
      · subst hl
        simp [inLane, hready.1, hitems]
      · simp [inLane, hl]
    · dsimp only at hr
      rw [update_apply] at hr
      split at hr
      · obtain ⟨cause, rfl, hcause⟩ := halone hkinds hintime r hr err herr
        exact hown r.1 (hitems ▸ mem_map_of_mem hr) cause hcause
      · exact h.running lane' r hr err herr
  · cases hstep

/-- A request that arrives orderly is behind those it conflicts with. -/
theorem Ordered.enqueue (h : Ordered own q) {req : WriteEffectsRequest} {commit : Bool}
    (horderly : Orderly cfg q (.enqueue req commit)) :
    Ordered own (q.enqueue cfg req commit) := by
  obtain ⟨hroom, hkind, hlane⟩ := horderly
  have hmem : ∀ lane a, a ∈ (q.enqueue cfg req commit).inLane lane ↔ a ∈ q.inLane lane ∨
      lane = req.serviceWriteEffectsLaneKey cfg ∧ a = ⟨q.nextSeq, req, commit⟩ := by
    intro lane a
    by_cases hl : lane = req.serviceWriteEffectsLaneKey cfg
    · subst hl
      simp [inLane, WriteEffectsQueue.enqueue, hroom, or_assoc]
    · simp [inLane, WriteEffectsQueue.enqueue, hroom, hl]
  have hqueue : (q.enqueue cfg req commit).sending = q.sending ∧
      (q.enqueue cfg req commit).nextSeq = q.nextSeq + 1 ∧
      (q.enqueue cfg req commit).applied = q.applied ∧
      (q.enqueue cfg req commit).running = q.running ∧
      (q.enqueue cfg req commit).failed = q.failed := by
    simp [WriteEffectsQueue.enqueue, hroom]
  obtain ⟨hsending, hseq, happ, hrun, hfailed⟩ := hqueue
  refine ⟨hsending ▸ h.sending, fun lane => ?_, fun lane a ha b hb => ?_,
    fun lane lane' a ha b hb hab => ?_, fun lane a ha => ?_, ?_, ?_, happ ▸ h.applied,
    hrun ▸ h.running, hfailed ▸ h.failed⟩
  · by_cases hl : lane = req.serviceWriteEffectsLaneKey cfg
    · subst hl
      have happend : (q.enqueue cfg req commit).inLane (req.serviceWriteEffectsLaneKey cfg) =
          q.inLane (req.serviceWriteEffectsLaneKey cfg) ++ [⟨q.nextSeq, req, commit⟩] := by
        simp [inLane, WriteEffectsQueue.enqueue, hroom]
      rw [happend, pairwise_append]
      refine ⟨h.sorted _, pairwise_singleton _ _, fun a ha b hb => ?_⟩
      rw [mem_singleton.mp hb]
      exact h.arrived _ a ha
    · have hsame : (q.enqueue cfg req commit).inLane lane = q.inLane lane := by
        simp [inLane, WriteEffectsQueue.enqueue, hroom, hl]
      rw [hsame]
      exact h.sorted lane
  · rcases (hmem lane a).mp ha with ha | ⟨rfl, rfl⟩ <;> rcases (hmem _ b).mp hb with hb | ⟨hl, rfl⟩
    · exact h.kinds lane a ha b hb
    · exact hkind a (hl ▸ ha)
    · exact (hkind b hb).symm
    · rfl
  · rcases (hmem lane a).mp ha with ha | ⟨rfl, rfl⟩ <;>
      rcases (hmem lane' b).mp hb with hb | ⟨rfl, rfl⟩
    · exact h.lanes lane lane' a ha b hb hab
    · exact hlane lane a ha hab
    · exact (hlane lane' b hb (Conflict.symm hab)).symm
    · rfl
  · rw [hseq]
    rcases (hmem lane a).mp ha with ha | ⟨-, rfl⟩
    · exact Nat.lt_succ_of_lt (h.arrived lane a ha)
    · exact Nat.lt_succ_self _
  · rw [happ, hseq]
    exact fun a ha => Nat.lt_succ_of_lt (h.appliedArrived a ha)
  · rw [happ]
    intro a ha lane b hb hab
    rcases (hmem lane b).mp hb with hb | ⟨-, rfl⟩
    · exact h.ahead a ha lane b hb hab
    · exact h.appliedArrived a ha

/-- A batch that ends takes its requests off the lane in their order. -/
theorem Ordered.finish (h : Ordered own q) (hstep : q.finish lane = some q') :
    Ordered own q' := by
  unfold WriteEffectsQueue.finish at hstep
  split at hstep
  · cases hstep
  next item outcome rest hrun =>
  have hfront : q.inLane lane = item :: (rest.map (·.1) ++ q.batch lane ++ q.channel lane) := by
    simp [inLane, hrun]
  have hsub : ∀ lane', List.Sublist
      (inLane { q with running := update q.running lane rest } lane')
      (q.inLane lane') := by
    intro lane'
    by_cases hl : lane' = lane
    · subst hl
      rw [hfront]
      simp [inLane]
    · simp [inLane, hl]
  have hitem : item ∈ q.inLane lane := hfront ▸ mem_cons_self
  -- what is left of its lane has arrived later
  have hlater : ∀ lane', ∀ b ∈ inLane { q with running := update q.running lane rest }
      lane', item.req.Conflict b.req → item.seq < b.seq := by
    intro lane' b hb hconflict
    obtain rfl := h.lanes lane lane' item hitem b ((hsub lane').subset hb) hconflict
    have hsort := h.sorted lane
    rw [hfront, pairwise_cons] at hsort
    exact hsort.1 b (by simpa [inLane] using hb)
  have hleft : ∀ lane', ∀ r ∈ update q.running lane rest lane', ∀ err ∈ r.2, own r.1 err := by
    intro lane' r hr
    rw [update_apply] at hr
    split at hr
    · exact h.running lane r (hrun ▸ mem_cons_of_mem _ hr)
    · exact h.running lane' r hr
  have hrest : Ordered own { q with running := update q.running lane rest } :=
    ⟨h.sending, fun l => (h.sorted l).sublist (hsub l),
      fun l a ha b hb => h.kinds l a ((hsub l).subset ha) b ((hsub l).subset hb),
      fun l l' a ha b hb => h.lanes l l' a ((hsub l).subset ha) b ((hsub l').subset hb),
      fun l a ha => h.arrived l a ((hsub l).subset ha), h.appliedArrived,
      fun a ha l b hb => h.ahead a ha l b ((hsub l).subset hb), h.applied, hleft, h.failed⟩
  split at hstep
  · cases hstep
    refine { hrest with appliedArrived := ?_, ahead := ?_, applied := ?_ }
    · simp only [forall_mem_append, forall_mem_singleton]
      exact ⟨h.appliedArrived, h.arrived lane item hitem⟩
    · simp only [forall_mem_append, forall_mem_singleton]
      exact ⟨hrest.ahead, hlater⟩
    rw [pairwise_append]
    refine ⟨h.applied, pairwise_singleton _ _, fun a ha b hb => ?_⟩
    rw [mem_singleton.mp hb]
    exact h.ahead a ha lane item hitem
  · next err =>
    cases hstep
    refine { hrest with failed := ?_ }
    simp only [forall_mem_append, forall_mem_singleton]
    exact ⟨h.failed, h.running lane _ (hrun ▸ mem_cons_self) err rfl⟩

theorem FailsAlone.append {events : List QueueEvent} {item : QueuedRequest} {err : QueueErr}
    (h : FailsAlone cfg events item err) (e : QueueEvent) :
    FailsAlone cfg (events ++ [e]) item err := by
  obtain ⟨before, lane, answers, after, s, cause, rfl, h⟩ := h
  exact ⟨before, lane, answers, after ++ [e], s, cause, append_assoc _ _ _, h⟩

theorem Ordered.step {done : List QueueEvent} (h : Ordered (FailsAlone cfg done) q)
    (hdone : Trace.run (WriteEffectsQueue.step cfg) {} done = some q) {e : QueueEvent}
    (horderly : Orderly cfg q e) (hstep : q.step cfg e = some q') :
    Ordered (FailsAlone cfg (done ++ [e])) q' := by
  have h := h.mono fun item err hown => hown.append e
  cases e with
  | enqueue req commit =>
    cases hstep
    exact h.enqueue horderly
  | send lane item =>
    -- no goroutine is left to send
    simp [WriteEffectsQueue.step, send, h.sending] at hstep
  | receive lane => exact h.receive hstep
  | start lane answers =>
    refine h.start horderly (fun item hitem cause hcause => ?_) hstep
    exact ⟨done, lane, answers, [], q, cause, rfl, hdone, hitem, rfl, hcause⟩
  | finish lane => exact h.finish hstep

/-- In an orderly run, requests that touch a common page are applied in the order of arrival, none
of them before an earlier one that still waits, and a request fails only as it would alone. -/
theorem applied_in_order {events : List QueueEvent}
    (horderly : Trace.Guarded (WriteEffectsQueue.step cfg) (Orderly cfg) {} events)
    (hrun : Trace.run (WriteEffectsQueue.step cfg) {} events = some q) :
    (q.applied.Pairwise fun a b => a.req.Conflict b.req → a.seq < b.seq) ∧
      (∀ a ∈ q.applied, ∀ lane, ∀ b ∈ q.inLane lane, a.req.Conflict b.req → a.seq < b.seq) ∧
      ∀ f ∈ q.failed, FailsAlone cfg events f.1 f.2 := by
  have hordered : ∀ done s, Trace.run (WriteEffectsQueue.step cfg) {} done = some s →
      Ordered (FailsAlone cfg done) s →
      Trace.Guarded (WriteEffectsQueue.step cfg) (Orderly cfg) s events →
      Trace.run (WriteEffectsQueue.step cfg) s events = some q →
        Ordered (FailsAlone cfg (done ++ events)) q := by
    clear horderly hrun
    induction events with
    | nil =>
      intro done s _ h _ hrun
      cases hrun
      rwa [append_nil]
    | cons e events ih =>
      intro done s hdone h horderly hrun
      obtain ⟨s1, hs1, hrun⟩ := Trace.run_cons.mp hrun
      rw [append_cons]
      refine ih _ s1 ?_ (h.step hdone horderly.1 hs1) (horderly.2 s1 hs1) hrun
      rw [Trace.run_append, hdone]
      exact Trace.run_cons.mpr ⟨s1, hs1, rfl⟩
  have h := hordered [] {} rfl ordered_empty horderly hrun
  exact ⟨h.applied, h.ahead, h.failed⟩

def ofPages (pageNos : List Nat) : WriteEffectsRequest :=
  { volumeID := "v", affectedPageNos := pageNos }

/-- Two requests of one page arrive and are applied as one batch. -/
def onePage (commit : Bool) (answers : BatchAnswers := {}) : List QueueEvent :=
  [.enqueue (ofPages [1]) false, .enqueue (ofPages [1]) commit, .receive (.page "v" 1),
    .receive (.page "v" 1), .start (.page "v" 1) answers, .finish (.page "v" 1),
    .finish (.page "v" 1)]

/-- The call for the batch fails, and the call for the second request. -/
def rejected : BatchAnswers where
  batch _ := { err := some (.other "unavailable"), duration := 20000 }
  single item _ := if item.seq = 1 then { err := some (.other "not found") } else {}

/-- After the batch has failed, the first request is applied and the second fails alone. -/
theorem one_page_applied_in_order :
    ∃ q, Trace.run (WriteEffectsQueue.step {}) {} (onePage false rejected) = some q ∧
      q.applied.map (·.seq) = [0] ∧ q.failed.map (·.1.seq) = [1] ∧
      ∀ f ∈ q.failed, FailsAlone {} (onePage false rejected) f.1 f.2 := by
  have horderly : Trace.Guarded (WriteEffectsQueue.step {}) (Orderly {}) {}
      (onePage false rejected) := by
    refine ⟨⟨by decide, nofun, nofun⟩, fun q hq => ?_⟩
    cases hq
    refine ⟨⟨by decide, by decide, fun lane item hitem _ => ?_⟩, fun q hq => ?_⟩
    · -- only the lane of the page has a request
      by_contra hlane
      have hlane : lane ≠ .page "v" 1 := hlane
      change item ∈ [] ++ [] ++ update (fun _ => []) (.page "v" 1) _ lane at hitem
      rw [update_of_ne hlane] at hitem
      cases hitem
    cases hq
    refine ⟨trivial, fun q hq => ⟨trivial, fun q' hq' => ?_⟩⟩
    cases hq
    cases hq'
    exact ⟨by unfold Orderly; decide, fun _ _ => ⟨trivial, fun _ _ => ⟨trivial, fun _ _ => trivial⟩⟩⟩
  exact ⟨_, rfl, by decide, by decide, (applied_in_order horderly rfl).2.2⟩

/-- The first request uses up the time of the batch. -/
def slow : BatchAnswers where
  batch _ := { err := some (.other "unavailable") }
  single item _ := if item.seq = 0 then { duration := 30000 } else {}

/-- A request of two pages is overtaken by a later one of one of them, a commit and effects that
meet in a batch both fail, and after a slow request the next one of its batch fails, which alone
is applied. -/
theorem overtaken_and_mixed : (∃ q, Trace.run (WriteEffectsQueue.step {}) {}
        [.enqueue (ofPages [1, 2]) false, .enqueue (ofPages [1]) false, .receive (.page "v" 1),
          .start (.page "v" 1) {}, .finish (.page "v" 1), .receive (.all "v"), .start (.all "v") {},
          .finish (.all "v")] = some q ∧ q.applied.map (·.seq) = [1, 0]) ∧
    (∃ q, Trace.run (WriteEffectsQueue.step {}) {} (onePage true) = some q ∧
      q.failed.map (·.2) = [.mixed, .mixed]) ∧
    ∃ q, Trace.run (WriteEffectsQueue.step {}) {} (onePage false slow) = some q ∧
      (⟨1, ofPages [1], false⟩, .apply .deadlineExceeded) ∈ q.failed ∧
      (applyItem slow ⟨1, ofPages [1], false⟩ 0).1 = none :=
  ⟨⟨_, rfl, by decide⟩, ⟨_, rfl, by decide⟩, _, rfl, by decide, by decide⟩

/-! ## No request is lost or answered twice -/

def requests : List QueueEvent → List (WriteEffectsRequest × Bool) :=
  filterMap fun
    | .enqueue req commit => some (req, commit)
    | _ => none

/-- How often a request waits in a lane, or was applied or has failed if the lane is its own. -/
def places (cfg : WriteEffectsConfig) (q : WriteEffectsQueue) (lane : Lane)
    (item : QueuedRequest) : Nat :=
  (q.sending lane ++ q.inLane lane).count item +
    if lane = item.req.serviceWriteEffectsLaneKey cfg then
      (q.applied ++ q.failed.map (·.1)).count item
    else 0

/-- Each request that has arrived is at one place, and nothing else is. -/
structure Kept (cfg : WriteEffectsConfig) (arrived : List (WriteEffectsRequest × Bool))
    (q : WriteEffectsQueue) : Prop where
  nextSeq : q.nextSeq = arrived.length
  once : ∀ lane item, q.places cfg lane item =
    if lane = item.req.serviceWriteEffectsLaneKey cfg ∧
      arrived[item.seq]? = some (item.req, item.commit) then 1 else 0

variable {arrived : List (WriteEffectsRequest × Bool)} {e : QueueEvent}

/-- A step that only moves requests within their lanes. -/
theorem Kept.of_perm (h : Kept cfg arrived q)
    (hlanes : ∀ lane, q'.sending lane ++ q'.inLane lane ~ q.sending lane ++ q.inLane lane)
    (hseq : q'.nextSeq = q.nextSeq) (happ : q'.applied = q.applied)
    (hfailed : q'.failed = q.failed) : Kept cfg (arrived ++ []) q' := by
  rw [append_nil]
  refine ⟨hseq.trans h.nextSeq, fun lane item => ?_⟩
  rw [← h.once, places, places, (hlanes lane).count_eq, happ, hfailed]

theorem Kept.enqueue (h : Kept cfg arrived q) (req : WriteEffectsRequest) (commit : Bool) :
    Kept cfg (arrived ++ [(req, commit)]) (q.enqueue cfg req commit) := by
  have hplaces : ∀ lane item, (q.enqueue cfg req commit).places cfg lane item =
      q.places cfg lane item + if lane = req.serviceWriteEffectsLaneKey cfg ∧
        item = ⟨arrived.length, req, commit⟩ then 1 else 0 := by
    intro lane item
    unfold places WriteEffectsQueue.enqueue
    rw [h.nextSeq]
    dsimp only
    by_cases hl : lane = req.serviceWriteEffectsLaneKey cfg
    · subst hl
      by_cases hi : item = ⟨arrived.length, req, commit⟩
      · split <;> simp [inLane, hi] <;> omega
      · split <;> simp [inLane, hi, Ne.symm hi]
    · split <;> simp [inLane, hl]
  refine ⟨?_, fun lane item => ?_⟩
  · unfold WriteEffectsQueue.enqueue
    dsimp only
    split <;> simp [h.nextSeq]
  · rw [hplaces, h.once]
    obtain ⟨seq, req', commit'⟩ := item
    grind

theorem Kept.finish (h : Kept cfg arrived q) (hstep : q.finish lane = some q') :
    Kept cfg arrived q' := by
  unfold WriteEffectsQueue.finish at hstep
  split at hstep
  · cases hstep
  next first outcome rest hrun =>
  -- the request is in its own lane
  have hlane : lane = first.req.serviceWriteEffectsLaneKey cfg := by
    by_contra hne
    have hplaces := h.once lane first
    simp [places, inLane, hrun, hne] at hplaces
  have hplaces : ∀ lane' item, q'.places cfg lane' item = q.places cfg lane' item := by
    intro lane' item
    unfold places
    split at hstep <;> cases hstep
    all_goals
      by_cases hl : lane' = lane
      · subst hl
        by_cases hi : first = item
        · subst hi
          simp [inLane, hrun, ← hlane]
          omega
        · simp [inLane, hrun, hi]
      · have hi : lane' = item.req.serviceWriteEffectsLaneKey cfg → first ≠ item := by
          rintro rfl rfl
          exact hl hlane.symm
        simp [inLane, hl]
        grind
  refine ⟨?_, fun lane' item => (hplaces lane' item).trans (h.once lane' item)⟩
  split at hstep <;> cases hstep <;> exact h.nextSeq

/-- An event moves requests and loses none. -/
theorem Kept.step (h : Kept cfg arrived q) (hstep : q.step cfg e = some q') :
    Kept cfg (arrived ++ requests [e]) q' := by
  cases e with
  | enqueue req commit =>
    cases hstep
    exact h.enqueue req commit
  | finish lane => simpa [requests] using h.finish hstep
  | send lane item =>
    simp only [WriteEffectsQueue.step, send] at hstep
    split at hstep
    · next hready =>
      cases hstep
      refine h.of_perm (fun lane' => ?_) rfl rfl rfl
      by_cases hl : lane' = lane
      · subst hl
        simp only [inLane, update_self, ← append_assoc]
        exact (perm_append_singleton item _).trans
          (((perm_cons_erase hready.1).symm.append_right _).append_right _ |>.append_right _)
      · simp [inLane, hl]
    · cases hstep
  | receive lane =>
    simp only [WriteEffectsQueue.step, receive] at hstep
    split at hstep
    · cases hstep
    next item rest hchannel =>
    split at hstep
    · cases hstep
      refine h.of_perm (fun lane' => ?_) rfl rfl rfl
      by_cases hl : lane' = lane
      · subst hl
        simp [inLane, hchannel]
      · simp [inLane, hl]
    · cases hstep
  | start lane answers =>
    simp only [WriteEffectsQueue.step, start] at hstep
    split at hstep
    · next hready =>
      obtain ⟨hitems, -⟩ := applyItems_spec cfg answers (q.batch lane)
      cases hstep
      refine h.of_perm (fun lane' => ?_) rfl rfl rfl
      by_cases hl : lane' = lane
      · subst hl
        simp [inLane, hitems, hready.1]
      · simp [inLane, hl]
    · cases hstep

/-- In every run, a request that was put into the queue is at one place: it waits in its lane, was
applied or has failed. Nothing else is there, and nothing is there twice. -/
theorem handled_once (events : List QueueEvent)
    (hrun : Trace.run (WriteEffectsQueue.step cfg) {} events = some q) (lane : Lane)
    (item : QueuedRequest) : q.places cfg lane item =
      if lane = item.req.serviceWriteEffectsLaneKey cfg ∧
        (requests events)[item.seq]? = some (item.req, item.commit) then 1 else 0 := by
  have hkept : ∀ arrived s, Kept cfg arrived s →
      Trace.run (WriteEffectsQueue.step cfg) s events = some q →
        Kept cfg (arrived ++ requests events) q := by
    clear hrun
    induction events with
    | nil =>
      intro arrived s h hrun
      cases hrun
      simpa [requests] using h
    | cons e events ih =>
      intro arrived s h hrun
      obtain ⟨s1, hs1, hrun⟩ := Trace.run_cons.mp hrun
      have hrest := ih _ s1 (h.step hs1) hrun
      rwa [append_assoc, requests, ← filterMap_append] at hrest
  exact (hkept [] {} ⟨rfl, by simp [places, inLane]⟩ hrun).once lane item

/-- The commit of a mixed batch is at one place, although it fails. -/
theorem one_page_handled_once :
    ∃ q, Trace.run (WriteEffectsQueue.step {}) {} (onePage true) = some q ∧
      q.places {} (.page "v" 1) ⟨1, ofPages [1], true⟩ = 1 :=
  ⟨_, rfl, (handled_once (onePage true) rfl _ _).trans (by decide)⟩

end WriteEffectsQueue

end Namrbd
