import Mathlib.Data.Nat.Init
import Namrbd.Node.Sessions

/-!
# Generations of a node

The session that is open is all a node knows of earlier generations. Those it accepts go up
as long as every open that finds no session brings one that is not below them.
-/

namespace Namrbd.Node

open List Result

variable {session : OpenSession} {c : SBSRequestContext} {current : Option OpenSession}
  {s t : NodeSession}

theorem openSession_eq_ok {volumeID : String} (h : openSession volumeID c current = .ok session) :
    session.generation = c.generation ∧ ∀ old ∈ current, old.generation = c.generation := by
  cases current with
  | none =>
    cases h
    exact ⟨rfl, nofun⟩
  | some old =>
    dsimp only [openSession] at h
    split at h
    · cases h
    next hsame =>
    cases h
    have hgen := not_not.mp (not_or.mp hsame).2
    exact ⟨hgen, fun _ hold => by cases hold; exact hgen⟩

theorem validateOpenSession_eq_ok {handle : String}
    (h : validateOpenSession handle c current = .ok ()) :
    ∃ session, current = some session ∧ session.generation = c.generation := by
  cases current with
  | none => cases h
  | some session =>
    dsimp only [validateOpenSession] at h
    obtain ⟨-, h⟩ := throwIf_eq_ok.mp h
    obtain ⟨hgen, -⟩ := throwIf_eq_ok.mp h
    exact ⟨session, rfl, not_not.mp hgen⟩

namespace NodeSession

/-- The generations accepted go up, to at most that of the session. -/
structure Ordered (s : NodeSession) : Prop where
  accepted : s.accepted.Pairwise (· ≤ ·)
  session : ∀ current ∈ s.session, ∀ g ∈ s.accepted, g ≤ current.generation

theorem Ordered.accept (h : s.Ordered) (hsess : s.session = some session)
    (hgen : session.generation = c.generation) : (s.accept c).Ordered := by
  have hle := h.session session hsess
  constructor
  · refine pairwise_append.mpr ⟨h.accepted, pairwise_singleton _ _, fun g hg g' hg' => ?_⟩
    rw [mem_singleton.mp hg', ← hgen]
    exact hle g hg
  · intro session' hsess' g hg
    cases hsess.symm.trans hsess'
    obtain hg | hg := mem_append.mp hg
    · exact hle g hg
    · rw [mem_singleton.mp hg, hgen]

theorem Ordered.closed (h : s.Ordered) : Ordered { s with session := none } := ⟨h.accepted, nofun⟩

/-- An open that finds no session brings a generation not below those accepted. -/
def OpensInOrder (s : NodeSession) : SessionEvent → Bool
  | .openVolume c _ => s.session.isSome || s.accepted.all (· ≤ c.generation)
  | _ => true

/-- An event keeps the order of the generations. -/
theorem Ordered.step (h : s.Ordered) {event : SessionEvent} (horder : s.OpensInOrder event)
    (hstep : s.step event = some t) : t.Ordered := by
  cases event with
  | openVolume c stateRead =>
    cases hstep
    unfold NodeSession.openVolume
    split
    · exact h
    next session hsess =>
    obtain ⟨hgen, hsame⟩ := openSession_eq_ok hsess
    have hs : Ordered { s with session := some session } := by
      refine ⟨h.accepted, ?_⟩
      rintro _ ⟨⟩ g hg
      rw [hgen]
      cases hcur : s.session with
      | none =>
        simp only [OpensInOrder, hcur, Option.isSome_none, Bool.false_or, all_eq_true,
          decide_eq_true_eq] at horder
        exact horder g hg
      | some current => exact hsame current hcur ▸ h.session current hcur g hg
    split
    · exact hs.accept rfl hgen
    · exact hs
  | closeVolume c =>
    cases hstep
    unfold NodeSession.closeVolume
    split
    · exact h
    split
    · exact h
    · exact h.closed
  | operation handle c =>
    dsimp only [NodeSession.step] at hstep
    split at hstep <;> cases hstep
    · exact h
    · next hvalid =>
      obtain ⟨session, hsess, hgen⟩ := validateOpenSession_eq_ok hvalid
      exact h.accept hsess hgen
  | fenced | restart =>
    cases hstep
    exact h.closed

/-- A node keeps the generations of a volume in order, and an open is refused only for the
session of another attachment or generation. -/
theorem generations_in_order {volumeID : String} {events : List SessionEvent}
    (h : Trace.Guarded step (OpensInOrder · ·) { volumeID } events)
    (hrun : Trace.run step { volumeID } events = some t) :
    t.accepted.Pairwise (· ≤ ·) ∧
      ∀ c, (t.openVolume c true).accepted = t.accepted ++ [c.generation] ↔
        ∀ current ∈ t.session,
          current.attachmentID = c.attachmentID ∧ current.generation = c.generation := by
  have hstart : Ordered { volumeID } := ⟨.nil, nofun⟩
  have hordered : t.Ordered := Trace.run_induction Ordered
    (fun _ _ _ hs horder hstep => hs.step horder hstep) hstart h hrun
  refine ⟨hordered.accepted, fun c => ?_⟩
  unfold NodeSession.openVolume
  cases t.session with
  | none => exact ⟨fun _ => nofun, fun _ => rfl⟩
  | some current =>
    by_cases hsame : current.attachmentID = c.attachmentID ∧ current.generation = c.generation
    · simp [openSession, hsame, NodeSession.accept]
    · have hother : current.attachmentID ≠ c.attachmentID ∨ current.generation ≠ c.generation :=
        not_and_or.mp hsame
      simp [openSession, hother, hsame]

def attachment (generation : Nat) : SBSRequestContext := ⟨"r", "g", "a", generation, "k"⟩

def reopened : List SessionEvent :=
  [.openVolume (attachment 1) true, .operation "" (attachment 1), .restart,
    .openVolume (attachment 2) true]

/-- The volume is opened again after a restart, with a higher generation. -/
theorem reopened_in_order : ∃ t, Trace.run step { volumeID := "v" } reopened = some t ∧
    t.accepted = [1, 1, 2] ∧ t.accepted.Pairwise (· ≤ ·) := by
  have h : Trace.Guarded step (OpensInOrder · ·) { volumeID := "v" } reopened := by decide
  exact ⟨_, rfl, rfl, (generations_in_order h rfl).1⟩

/-- An older generation is accepted after the newer one was closed, and a newer one is refused
while the older one is open. -/
theorem generation_goes_back :
    (Trace.run step { volumeID := "v" } [.openVolume (attachment 2) true,
      .closeVolume (attachment 2), .openVolume (attachment 1) true]).map (·.accepted) =
      some [2, 1] ∧
    (Trace.run step { volumeID := "v" } [.openVolume (attachment 1) true,
      .openVolume (attachment 2) true]).map (·.accepted) = some [1] := by
  decide

end NodeSession

end Namrbd.Node
