import MeshConsole.Proofs.Job.Notices
import MeshConsole.Telemetry.Board

/-!
# Job changes of a submission

A submission is a call with all that has happened to it so far. Its job
changes are always `Orderly`, and once it has a result the last of them
closes the job.
-/

namespace MeshConsole

namespace Telemetry

/-- The job change an event tells of. -/
def Event.jobChange? : Event → Option JobChange
  | .job change => some change
  | _ => none

end Telemetry

namespace Job

open Telemetry (Note Event JobChange isTerminal)

structure Submission where
  desk : Desk Text
  ticket : Ticket
  moments : List Moment

namespace Submission

def call (s : Submission) : Call := (Call.enter s.desk s.ticket).2

def result? (s : Submission) : Option (Except Fault Text) := (s.call.follow s.moments).1.result?

/-- The job changes published so far. -/
def changes (s : Submission) : List JobChange :=
  (Note.events (s.call.follow s.moments).2).filterMap Event.jobChange?

/-- The job was accepted, and listeners have been told so. -/
def Accepted (s : Submission) : Prop := ∃ change ∈ s.changes, change.state = queued

instance (s : Submission) : Decidable s.Accepted :=
  inferInstanceAs (Decidable (∃ change ∈ s.changes, change.state = queued))

end Submission

-- ---------------------------------------------------------------------------
-- Orderly changes
-- ---------------------------------------------------------------------------

/-- The changes of a single job from `queued` on; after one that closes the
job there is none. -/
structure Orderly (changes : List JobChange) : Prop where
  queued : ∀ change, changes.head? = some change → change.state = queued
  id : ∀ change ∈ changes, change.id ≠ 0
  follow : changes.Pairwise fun earlier later =>
    later.id = earlier.id ∧ isTerminal earlier.state = false

theorem Orderly.mono (h : Orderly changes) (hp : part <+: changes) : Orderly part where
  queued change hhead := by
    obtain ⟨rest, rfl⟩ := hp
    exact h.queued change (by rw [List.head?_append, hhead]; rfl)
  id change hm := h.id change (hp.subset hm)
  follow := h.follow.sublist hp.sublist

theorem Orderly.last_of_terminal (h : Orderly changes) (hm : change ∈ changes)
    (ht : isTerminal change.state = true) : changes.getLast? = some change := by
  obtain ⟨before, after, rfl⟩ := List.mem_iff_append.mp hm
  cases after with
  | nil => simp
  | cons later rest =>
    have hfollow := (List.pairwise_append.mp h.follow).2.1
    have hopen := (List.pairwise_cons.mp hfollow).1 later List.mem_cons_self
    exact absurd (hopen.2.symm.trans ht) (by decide)

/-- The last change closes the job. -/
def Closed (changes : List JobChange) : Prop :=
  ∃ change, changes.getLast? = some change ∧ isTerminal change.state = true

theorem Ordinary.not_terminal (h : Ordinary state) : isTerminal state = false := by
  obtain ⟨_, _, hs, hf⟩ := h
  have hs : state ≠ "succeeded" := hs
  have hf : state ≠ "failed" := hf
  simp [isTerminal, hs, hf]

theorem Closing.terminal {id : Int64} (h : Closing t id m result state reason) :
    isTerminal state = true := by
  cases h with
  | succeeded => rfl
  | _ => rfl

/-- The change a notice tells of. -/
def Ticket.change (t : Ticket) (id : Int64) (state reason : Text) : JobChange :=
  { id, type := t.type, label := t.label, state, reason, requestId := t.requestId }

theorem Told.changes {id : Int64} (h : Told ticket id m result events) :
    ∃ (opened : List Text) (state reason : Text), events.filterMap Event.jobChange? =
        opened.map (ticket.change id · []) ++ [ticket.change id state reason] ∧
      opened.head? = some queued ∧ (∀ state ∈ opened, isTerminal state = false) ∧
      isTerminal state = true := by
  obtain ⟨states, state, reason, rfl, hordinary, _, _, hclose⟩ := h
  refine ⟨queued :: states, state, reason, ?_, rfl, ?_, hclose.terminal⟩
  · have hnotice (state reason) :
        Event.jobChange? (ticket.notice id state reason) = some (ticket.change id state reason) := rfl
    simp [List.filterMap_map, hnotice]
  · intro state hm
    rcases List.mem_cons.mp hm with rfl | hm
    · decide
    · exact (hordinary state hm).not_terminal

theorem Told.closed {id : Int64} (h : Told ticket id m result events) :
    Closed (events.filterMap Event.jobChange?) := by
  obtain ⟨opened, state, reason, hchanges, _, _, hterminal⟩ := h.changes
  exact ⟨_, by rw [hchanges, List.getLast?_append]; rfl, hterminal⟩

theorem Told.orderly {id : Int64} (h : Told ticket id m result events) (hid : id ≠ 0) :
    Orderly (events.filterMap Event.jobChange?) := by
  obtain ⟨opened, state, reason, hchanges, hqueued, hopened, _⟩ := h.changes
  have hids : ∀ change ∈ events.filterMap Event.jobChange?, change.id = id := by
    rw [hchanges]
    simp [or_imp, forall_and, Ticket.change]
  refine ⟨?_, fun change hm => hids change hm ▸ hid, ?_⟩
  · intro change hhead
    rw [hchanges, List.head?_append, List.head?_map, hqueued] at hhead
    cases hhead
    rfl
  · rw [hchanges]
    refine List.pairwise_append.mpr ⟨?_, List.pairwise_singleton .., ?_⟩
    · refine List.pairwise_map.mpr (List.pairwise_iff_forall_sublist.mpr fun {earlier later} hsub => ?_)
      exact ⟨rfl, hopened earlier (hsub.subset List.mem_cons_self)⟩
    · intro earlier hm last hlast
      obtain ⟨state, hopen, rfl⟩ := List.mem_map.mp hm
      cases List.mem_singleton.mp hlast
      exact ⟨rfl, hopened state hopen⟩

-- ---------------------------------------------------------------------------
-- Calls that go on
-- ---------------------------------------------------------------------------

theorem enter_free {desk : Desk Text} {ticket : Ticket} (h : desk.isActive ticket.type = false) :
    (Call.enter desk ticket).2 = .registered { ticket } := by
  simp [Call.enter, Desk.register?, h]

theorem enter_held {desk : Desk Text} {ticket : Ticket} (h : desk.isActive ticket.type = true) :
    (Call.enter desk ticket).2 = .returned (.error (.within ticket.type .jobInProgress)) := by
  simp [Call.enter, Desk.register?, h]

theorem follow_append (call : Call) (moments more : List Moment) :
    (call.follow (moments ++ more)).1 = ((call.follow moments).1.follow more).1 ∧
    (call.follow (moments ++ more)).2 =
      (call.follow moments).2 ++ ((call.follow moments).1.follow more).2 := by
  induction moments generalizing call with
  | nil => exact ⟨rfl, rfl⟩
  | cons m rest ih =>
    obtain ⟨hcall, hnotes⟩ := ih (call.hear m).1
    simp only [List.cons_append, Call.follow, hcall, hnotes, List.append_assoc, and_self]

/-- Any call can be brought to a result. -/
theorem exists_result (call : Call) :
    ∃ more result, (call.follow more).1.result? = some result := by
  cases call with
  | returned result => exact ⟨[], result, rfl⟩
  | registered run =>
    have ends (happening) (result : Except Fault Text)
        (hphase : (run.step 0 false happening).1.phase = .ended result) :
        ∃ more result, ((Call.registered run).follow more).1.result? = some result :=
      ⟨[{ now := 0, cancelled := false, happening }], result, result?_registered hphase⟩
    cases hp : run.phase with
    | submitting =>
      exact ends (.submitted (.error .canceled))
        (.error (.within (("submit " : Text) ++ run.ticket.type ++ " job") .canceled))
        (by simp only [Run.step, hp]; rfl)
    | polling job =>
      exact ends (.polled (.error .canceled))
        (.error (.within (("poll " : Text) ++ run.ticket.jobName job.id) .canceled))
        (by simp only [Run.step, hp]; rfl)
    | waiting job => exact ends .interrupted (.error .canceled) (by simp only [Run.step, hp]; rfl)
    | ended result => exact ⟨[], result, result?_registered hp⟩

namespace Submission

theorem orderly_of_result (s : Submission) (h : s.result? = some result) :
    Orderly s.changes ∧ (s.changes ≠ [] → Closed s.changes) := by
  have silent (hevents : Note.events (s.call.follow s.moments).2 = []) :
      Orderly s.changes ∧ (s.changes ≠ [] → Closed s.changes) := by
    have hnone : s.changes = [] := by rw [changes, hevents]; rfl
    rw [hnone]
    exact ⟨⟨nofun, nofun, .nil⟩, (absurd rfl ·)⟩
  by_cases hactive : s.desk.isActive s.ticket.type = true
  · have hcall : s.call = .returned (.error (.within s.ticket.type .jobInProgress)) :=
      enter_held hactive
    exact silent (by rw [hcall, follow_of_result rfl]; rfl)
  · have hcall : s.call = .registered { ticket := s.ticket } :=
      enter_free (Bool.eq_false_iff.mpr hactive)
    rw [result?, hcall] at h
    rcases follow_submitting rfl h with
      ⟨_, _, hnone⟩ | ⟨_, _, _, hnone⟩ | ⟨receipt, last, _, hid, _, htold⟩
    · exact silent (by rw [hcall, hnone])
    · exact silent (by rw [hcall, hnone])
    · have hid : receipt.id ≠ 0 := by
        intro h0
        exact hid (h0 ▸ Int64.le_refl 0)
      rw [← hcall] at htold
      exact ⟨Told.orderly htold hid, fun _ => Told.closed htold⟩

/-- Whatever has happened so far could have gone on to a result. -/
theorem orderly (s : Submission) : Orderly s.changes := by
  obtain ⟨more, result, hresult⟩ := exists_result (s.call.follow s.moments).1
  let settled : Submission := { s with moments := s.moments ++ more }
  have hfollow := follow_append s.call s.moments more
  have hsettled : settled.result? = some result := by
    show (s.call.follow (s.moments ++ more)).1.result? = _
    rw [hfollow.1, hresult]
  have hprefix : s.changes <+: settled.changes := by
    show _ <+: (Note.events (s.call.follow (s.moments ++ more)).2).filterMap Event.jobChange?
    rw [hfollow.2, Note.events_append, List.filterMap_append]
    exact List.prefix_append ..
  exact (settled.orderly_of_result hsettled).1.mono hprefix

theorem closed (s : Submission) (h : s.result? = some result) (hs : s.changes ≠ []) :
    Closed s.changes :=
  (s.orderly_of_result h).2 hs

theorem accepted_iff (s : Submission) : s.Accepted ↔ s.changes ≠ [] := by
  constructor
  · rintro ⟨change, hm, _⟩
    exact List.ne_nil_of_mem hm
  · intro hs
    exact ⟨s.changes.head hs, List.head_mem hs, s.orderly.queued _ (List.head?_eq_some_head hs)⟩

end Submission

end Job

end MeshConsole
